import ThistleOS.JsonText
import ThistleOS.Kernel.MsgQueue.Lookup
import ThistleOS.Recovery.Catalog

/-!
# The recovery page

The page sends what the user typed as the strings of an object, and a handler searches the body for the keys. Each
key is found, whatever the other strings hold, but a string is read up to the first quote and as it was escaped.
-/

open ThistleOS.MsgQueue (Text findAfter quoted findAfter_self findAfter_skip findAfter_quote findAfter_step
  findAfter_head findAfter_mark trimStart trimStart_of_not)
open ThistleOS.JsonText (Unescaped)
open ThistleOS.Catalog (jsonExtractString)

namespace ThistleOS.Web

variable {key s t v : Text} {c : Char}

/-! ### The page -/

/-- A character as `JSON.stringify` writes it in a string. -/
def escape (c : Char) : Text :=
  if c = '"' then ['\\', '"']
  else if c = '\\' then ['\\', '\\']
  else if c.toNat = 8 then ['\\', 'b']
  else if c.toNat = 9 then ['\\', 't']
  else if c.toNat = 10 then ['\\', 'n']
  else if c.toNat = 12 then ['\\', 'f']
  else if c.toNat = 13 then ['\\', 'r']
  else if c.toNat < 32 then ['\\', 'u', '0', '0', (c.toNat / 16).digitChar, (c.toNat % 16).digitChar]
  else [c]

def member (name : String) (value : String) : Text :=
  quoted name.toList ++ ':' :: quoted (value.toList.flatMap escape)

/-- An object with the strings. -/
def stringify (members : List (String × String)) : Text :=
  '{' :: [','].intercalate (members.map fun m => member m.1 m.2) ++ ['}']

def wifiBody (ssid password : String) : Text := stringify [("ssid", ssid), ("password", password)]

def boardBody (board : String) : Text := stringify [("board", board)]

/-- White space and line terminators of the page's language. -/
def isSpace (c : Char) : Bool :=
  (9 ≤ c.toNat && c.toNat ≤ 13) || c.toNat == 0x20 || c.toNat == 0xA0 || c.toNat == 0x1680 ||
    (0x2000 ≤ c.toNat && c.toNat ≤ 0x200A) || c.toNat == 0x2028 || c.toNat == 0x2029 || c.toNat == 0x202F ||
    c.toNat == 0x205F || c.toNat == 0x3000 || c.toNat == 0xFEFF

def trim (s : String) : String := String.ofList ((s.toList.dropWhile isSpace).rdropWhile isSpace)

/-- The body that is sent for the fields of the form. -/
def connectWifi (ssid password : String) : Option Text :=
  if trim ssid = "" then none else some (wifiBody (trim ssid) password)

/-! ### The handler -/

structure Wifi where
  wifiRequest : Option (String × String)
  wifiConnected : Bool
  wifiIp : String
  deriving DecidableEq

structure Response where
  status : Nat
  body : String
  deriving DecidableEq

/-- The handler of the credentials, for a request that is authorized and whose body has been read. -/
def wifiConnect (body : Text) (st : Wifi) : Wifi × Response :=
  match jsonExtractString body "ssid", jsonExtractString body "password" with
  | some s, some p =>
    if s = "" then (st, ⟨400, "\x7b\"ok\":false,\"error\":\"missing ssid or password\"\x7d"⟩)
    else (⟨some (s, p), false, ""⟩, ⟨200, "\x7b\"ok\":true\x7d"⟩)
  | _, _ => (st, ⟨400, "\x7b\"ok\":false,\"error\":\"missing ssid or password\"\x7d"⟩)

/-! ### Escaped characters -/

lemma digitChar_ne_quote {n : ℕ} (hn : n < 16) : n.digitChar ≠ '"' := by
  revert n
  decide

/-- A character stands for itself, or there are more characters for it, with a quote among them only for a quote. -/
lemma escape_cases (c : Char) : (Unescaped c ∧ escape c = [c]) ∨ (c = '"' ∧ escape c = ['\\', '"']) ∨
    (c ≠ '"' ∧ ¬ Unescaped c ∧ '"' ∉ escape c ∧ ∃ d t, escape c = '\\' :: d :: t) := by
  unfold escape Unescaped
  split_ifs with hquote hbackslash h₁ h₂ h₃ h₄ h₅ hlow
  · exact .inr (.inl ⟨hquote, rfl⟩)
  · exact .inr (.inr ⟨hquote, fun h => h.2.1 hbackslash, by decide, _, _, rfl⟩)
  · exact .inr (.inr ⟨hquote, fun h => by omega, by decide, _, _, rfl⟩)
  · exact .inr (.inr ⟨hquote, fun h => by omega, by decide, _, _, rfl⟩)
  · exact .inr (.inr ⟨hquote, fun h => by omega, by decide, _, _, rfl⟩)
  · exact .inr (.inr ⟨hquote, fun h => by omega, by decide, _, _, rfl⟩)
  · exact .inr (.inr ⟨hquote, fun h => by omega, by decide, _, _, rfl⟩)
  · refine .inr (.inr ⟨hquote, fun h => by omega, ?_, _, _, rfl⟩)
    have hhigh := digitChar_ne_quote (show c.toNat / 16 < 16 by omega)
    have hlow := digitChar_ne_quote (Nat.mod_lt c.toNat (by decide : 16 > 0))
    simp [hhigh.symm, hlow.symm]
  · exact .inl ⟨⟨hquote, hbackslash, by omega⟩, rfl⟩

lemma escape_head (c : Char) : (Unescaped c ∧ escape c = [c]) ∨ ∃ t, escape c = '\\' :: t := by
  rcases escape_cases c with h | ⟨-, h⟩ | ⟨-, -, -, d, t, h⟩
  · exact .inl h
  · exact .inr ⟨_, h⟩
  · exact .inr ⟨_, h⟩

lemma escape_length_pos (c : Char) : 0 < (escape c).length := by
  rcases escape_cases c with ⟨-, h⟩ | ⟨-, h⟩ | ⟨-, -, -, d, t, h⟩ <;> simp [h]

lemma length_escaped (s : Text) : s.length ≤ (s.flatMap escape).length := by
  induction s with
  | nil => exact Nat.le_refl _
  | cons c s ih =>
    have hc := escape_length_pos c
    rw [List.flatMap_cons, List.length_append, List.length_cons]
    omega

lemma escaped_eq_iff (s : Text) : s.flatMap escape = s ↔ ∀ c ∈ s, Unescaped c := by
  induction s with
  | nil => simp
  | cons c s ih =>
    rw [List.flatMap_cons, List.forall_mem_cons, ← ih]
    rcases escape_cases c with ⟨hc, h⟩ | ⟨rfl, h⟩ | ⟨-, hc, -, d, t, h⟩
    · simp [h, hc]
    · simp [h, Unescaped]
    · -- What stands for the character is longer, and the rest is not shorter.
      have hlong : (escape c ++ s.flatMap escape).length ≠ (c :: s).length := by
        have hs := length_escaped s
        rw [h, List.length_append, List.length_cons, List.length_cons, List.length_cons]
        omega
      exact iff_of_false (fun heq => hlong (congrArg List.length heq)) fun hboth => hc hboth.1

lemma quote_notMem_escaped (hs : '"' ∉ s) : '"' ∉ s.flatMap escape := by
  intro h
  obtain ⟨c, hc, hquote⟩ := List.mem_flatMap.mp h
  rcases escape_cases c with ⟨-, heq⟩ | ⟨rfl, -⟩ | ⟨-, -, hno, -⟩
  · rw [heq, List.mem_singleton] at hquote
    exact hs (hquote ▸ hc)
  · exact hs hc
  · exact hno hquote

/-! ### Strings -/

/-- What the reader takes for a string. -/
def readBack (value : String) : String := String.ofList ((value.toList.flatMap escape).takeWhile (· ≠ '"'))

/-- Where there is no quote, the reader stops only at the end. -/
lemma takeWhile_escaped (hs : '"' ∉ s) : (s.flatMap escape).takeWhile (· ≠ '"') = s.flatMap escape := by
  rw [List.takeWhile_eq_self_iff]
  intro c hc
  rw [decide_eq_true_eq]
  rintro rfl
  exact quote_notMem_escaped hs hc

lemma toList_readBack (value : String) :
    (readBack value).toList = (value.toList.flatMap escape).takeWhile (· ≠ '"') := String.toList_ofList

lemma readBack_eq_iff (value : String) : readBack value = value ↔ ∀ c ∈ value.toList, Unescaped c := by
  rw [← String.toList_inj, toList_readBack, ← escaped_eq_iff]
  constructor
  · intro h
    have hquote : '"' ∉ value.toList := by
      intro hmem
      rw [← h] at hmem
      simpa using List.mem_takeWhile_imp hmem
    rwa [takeWhile_escaped hquote] at h
  · intro h
    have hquote : '"' ∉ value.toList := fun hmem => ((escaped_eq_iff _).mp h _ hmem).1 rfl
    rwa [takeWhile_escaped hquote]

/-- The reader takes a string where a search for its key has led it. -/
lemma jsonExtractString_of_found {json rest : Text} {name value : String}
    (h : (findAfter (quoted name.toList) json).bind (findAfter [':']) =
      some (quoted (value.toList.flatMap escape) ++ rest)) :
    jsonExtractString json name = some (readBack value) := by
  obtain ⟨after, hafter, hcolon⟩ := Option.bind_eq_some_iff.mp h
  have htrim : trimStart (quoted (value.toList.flatMap escape) ++ rest) =
      '"' :: (value.toList.flatMap escape ++ '"' :: rest) := by
    rw [quoted, List.cons_append, List.cons_append, List.append_assoc]
    exact trimStart_of_not (by decide) _
  have hends : (value.toList.flatMap escape ++ '"' :: rest).takeWhile (· ≠ '"') =
      (value.toList.flatMap escape).takeWhile (· ≠ '"') := by
    rw [List.takeWhile_append]
    split_ifs with hall
    · rw [List.takeWhile_cons_of_neg (by simp), List.append_nil, (List.takeWhile_prefix _).eq_of_length hall]
    · rfl
  simp only [jsonExtractString, hafter, hcolon, Option.bind_eq_bind, Option.bind_some, htrim]
  rw [if_pos (by simp), hends, readBack]

/-! ### Searching for keys -/

/-- A key that no quotes, backslashes and marks between the members make up. -/
structure IsKey (key : Text) : Prop where
  quote : '"' ∉ key
  backslash : '\\' ∉ key
  colon : ':' ∉ key
  comma : ',' ∉ key

/-- A key that ends where a string ends is the end of that string, as no escaped quote ends a key. -/
lemma escaped_eq_of_prefix (hquote : '"' ∉ key) (hbackslash : '\\' ∉ key)
    (h : key ++ ['"'] <+: s.flatMap escape ++ '"' :: t) : s.flatMap escape = key := by
  induction s generalizing key with
  | nil =>
    cases key with
    | nil => rfl
    | cons k key => exact absurd ((List.cons_prefix_cons.mp h).1 ▸ List.mem_cons_self) hquote
  | cons c s ih =>
    rw [List.flatMap_cons] at h ⊢
    rcases escape_head c with ⟨hc, heq⟩ | ⟨x, heq⟩
    · rw [heq] at h ⊢
      cases key with
      | nil => exact absurd (List.cons_prefix_cons.mp h).1.symm hc.1
      | cons k key =>
        obtain ⟨rfl, hrest⟩ := List.cons_prefix_cons.mp h
        rw [List.singleton_append,
          ih (fun hk => hquote (List.mem_cons_of_mem k hk)) (fun hk => hbackslash (List.mem_cons_of_mem k hk)) hrest]
    · rw [heq] at h
      cases key with
      | nil => exact absurd (List.cons_prefix_cons.mp h).1 (by decide)
      | cons k key => exact absurd ((List.cons_prefix_cons.mp h).1 ▸ List.mem_cons_self) hbackslash

/-- What a reader finds behind a key, up to the colon. -/
def seek (key json : Text) : Option Text := (findAfter (quoted key) json).bind (findAfter [':'])

lemma seek_skip (hs : '"' ∉ s) (t : Text) : seek key (s ++ t) = seek key t := by
  rw [seek, findAfter_skip hs, seek]

lemma seek_self (key v : Text) : seek key (quoted key ++ ':' :: v) = some v := by
  rw [seek, findAfter_self, Option.bind_some, findAfter_head]

/-- The quote before a mark is not the first one of a key. -/
lemma seek_quote_mark (hc : c ≠ '"') (hkey : c ∉ key) (t : Text) : seek key ('"' :: c :: t) = seek key t := by
  have hfirst : (key ++ ['"']).isPrefixOf (c :: t) = false := by
    cases key with
    | nil => simp [List.isPrefixOf, hc.symm]
    | cons k key =>
      have hk : k ≠ c := fun heq => hkey (heq ▸ List.mem_cons_self)
      simp [List.isPrefixOf, hk]
  have hskip := @findAfter_skip key [c] (by simpa using hc.symm) t
  rw [seek, findAfter_quote, hfirst, if_neg (by decide), ← List.singleton_append, hskip, seek]

/-- A member after a string. -/
def next (key v : Text) : Text := '"' :: ',' :: (quoted key ++ ':' :: v)

/-- A quote before the string or in it is the first one of the key only if the string ends in the key. The search for
the colon then starts before the member, and comes to the same place. -/
lemma seek_quote (hkey : IsKey key) (h : seek key (s.flatMap escape ++ next key v) = some v) :
    seek key ('"' :: (s.flatMap escape ++ next key v)) = some v := by
  rw [seek, findAfter_quote]
  split_ifs with hfound
  · have hs := escaped_eq_of_prefix hkey.quote hkey.backslash (List.isPrefixOf_iff_prefix.mp hfound)
    have hdrop : (s.flatMap escape ++ next key v).drop (key.length + 1) = (',' :: quoted key) ++ ':' :: v := by
      rw [hs, next, List.drop_append]
      simp
    have hcolon : ':' ∉ ',' :: quoted key := by simp [quoted, hkey.colon]
    rw [hdrop, Option.bind_some, findAfter_mark hcolon]
  · exact h

/-- The key of the next member is found, whatever the string holds. -/
lemma seek_escaped (hkey : IsKey key) (s v : Text) : seek key (s.flatMap escape ++ next key v) = some v := by
  induction s with
  | nil =>
    rw [List.flatMap_nil, List.nil_append, next, seek_quote_mark (by decide) hkey.comma]
    exact seek_self key v
  | cons c s ih =>
    rw [List.flatMap_cons, List.append_assoc]
    rcases escape_cases c with ⟨hc, heq⟩ | ⟨rfl, heq⟩ | ⟨-, -, hquote, -⟩
    · rw [heq, seek_skip (by simpa using hc.1.symm), ih]
    · rw [heq]
      exact (seek_skip (s := ['\\']) (by decide) _).trans (seek_quote hkey ih)
    · rw [seek_skip hquote, ih]

/-! ### Reading the bodies -/

lemma isKey_password : IsKey "password".toList := ⟨by decide, by decide, by decide, by decide⟩

/-- The first member is found. -/
lemma extract_first (name value : String) (rest : Text) :
    jsonExtractString ('{' :: (member name value ++ rest)) name = some (readBack value) := by
  refine @jsonExtractString_of_found _ rest _ _ ?_
  have hfound := seek_self name.toList (quoted (value.toList.flatMap escape) ++ rest)
  have hskip := @seek_skip name.toList ['{'] (by decide) (member name value ++ rest)
  rw [List.singleton_append] at hskip
  rw [← seek, hskip, member, List.append_assoc, List.cons_append, hfound]

/-- The second member is found, whatever the string of the first one holds. -/
lemma extract_second {name name' : String} (hname : '"' ∉ name.toList) (hkey : IsKey name'.toList) (hne : name ≠ name')
    (value value' : String) (rest : Text) :
    jsonExtractString ('{' :: (member name value ++ ',' :: (member name' value' ++ rest))) name' =
      some (readBack value') := by
  refine @jsonExtractString_of_found _ rest _ _ ?_
  have hbody : '{' :: (member name value ++ ',' :: (member name' value' ++ rest)) =
      ['{'] ++ '"' :: (name.toList ++ '"' :: ':' :: '"' :: (value.toList.flatMap escape ++
        next name'.toList (quoted (value'.toList.flatMap escape) ++ rest))) := by
    simp [member, next, quoted]
  rw [hbody, ← seek, seek_skip (by decide), seek, findAfter_step hkey.quote hname,
    if_neg fun heq => hne (String.toList_inj.mp heq), ← seek, seek_quote_mark (by decide) hkey.colon]
  exact seek_quote hkey (seek_escaped hkey _ _)

lemma wifiBody_eq (ssid password : String) :
    wifiBody ssid password = '{' :: (member "ssid" ssid ++ ',' :: (member "password" password ++ ['}'])) := by
  simp [wifiBody, stringify]

lemma extract_ssid (ssid password : String) :
    jsonExtractString (wifiBody ssid password) "ssid" = some (readBack ssid) := by
  rw [wifiBody_eq, extract_first]

lemma extract_password (ssid password : String) :
    jsonExtractString (wifiBody ssid password) "password" = some (readBack password) := by
  rw [wifiBody_eq, extract_second (by decide) isKey_password (by decide)]

lemma extract_board (board : String) : jsonExtractString (boardBody board) "board" = some (readBack board) := by
  have hbody : boardBody board = '{' :: (member "board" board ++ ['}']) := by
    simp [boardBody, stringify]
  rw [hbody, extract_first]

lemma some_readBack_iff (value : String) : some (readBack value) = some value ↔ ∀ c ∈ value.toList, Unescaped c := by
  rw [Option.some_inj, readBack_eq_iff]

/-- The handlers read what was typed in a field if and only if none of its characters needs an escape. -/
theorem extracted_iff (ssid password board : String) :
    (jsonExtractString (wifiBody ssid password) "ssid" = some ssid ↔ ∀ c ∈ ssid.toList, Unescaped c) ∧
      (jsonExtractString (wifiBody ssid password) "password" = some password ↔ ∀ c ∈ password.toList, Unescaped c) ∧
      (jsonExtractString (boardBody board) "board" = some board ↔ ∀ c ∈ board.toList, Unescaped c) := by
  rw [extract_ssid, extract_password, extract_board]
  exact ⟨some_readBack_iff ssid, some_readBack_iff password, some_readBack_iff board⟩

/-- A password with a quote is read up to the backslash before the quote. -/
theorem password_cut : jsonExtractString (wifiBody "home" "a\"b") "password" ≠ some "a\"b" := by
  rw [extract_password]
  decide

/-! ### Stored credentials -/

/-- Something is read of what is not empty, as no escape starts with a quote. -/
lemma readBack_ne_empty {value : String} (h : value ≠ "") : readBack value ≠ "" := by
  have htoList : value.toList ≠ [] := fun heq => h (String.toList_inj.mp heq)
  obtain ⟨c, s, heq⟩ := List.exists_cons_of_ne_nil htoList
  intro hempty
  have hread := congrArg String.toList hempty
  rw [toList_readBack, heq, List.flatMap_cons] at hread
  rcases escape_head c with ⟨hc, hescape⟩ | ⟨t, hescape⟩
  · rw [hescape, List.singleton_append, List.takeWhile_cons_of_pos (by simpa using hc.1)] at hread
    exact List.cons_ne_nil _ _ hread
  · rw [hescape, List.cons_append, List.takeWhile_cons_of_pos (by decide)] at hread
    exact List.cons_ne_nil _ _ hread

/-- What the page sends is accepted, also where it is not read as it was typed. -/
theorem wifiConnect_page {ssid password : String} {body : Text} (h : connectWifi ssid password = some body)
    (st : Wifi) :
    wifiConnect body st =
      (⟨some (readBack (trim ssid), readBack password), false, ""⟩, ⟨200, "\x7b\"ok\":true\x7d"⟩) := by
  rw [connectWifi, Option.ite_none_left_eq_some] at h
  obtain ⟨hssid, hbody⟩ := h
  obtain rfl := Option.some_inj.mp hbody
  rw [wifiConnect, extract_ssid, extract_password]
  exact if_neg (readBack_ne_empty hssid)

/-- The credentials are stored as they are sent if and only if neither needs an escape. -/
theorem wifiConnect_stores_iff {ssid password : String} {body : Text} (h : connectWifi ssid password = some body)
    (st : Wifi) : (wifiConnect body st).1.wifiRequest = some (trim ssid, password) ↔
      (∀ c ∈ (trim ssid).toList, Unescaped c) ∧ ∀ c ∈ password.toList, Unescaped c := by
  rw [wifiConnect_page h, Option.some_inj, Prod.mk.injEq, readBack_eq_iff, readBack_eq_iff]

end ThistleOS.Web

import BlockExplorer.Json.Lexer
import BlockExplorer.Json.Writer

/-!
# BlockExplorer — reading what was written

The readers of strings and of lists of strings undo the writers, whatever text
stands behind. For a string this is said of one character first: reading passes
over `escaped c` and puts `c` in front of what follows (`readString_escaped`),
whether the character stands for itself, has an escape of one letter or is
written by its number.

Main results:

* `readString_flatMap` — a string is read back up to its closing quote.
* `readText_string`, `readVariant_string`, `readTexts_list` — the same of whole
  values.
-/

namespace BlockExplorer.Json

-- ---------------------------------------------------------------------------
-- One character of a string
-- ---------------------------------------------------------------------------

theorem fourDigits?_append {digits : Text} (h : digits.length = 4) (t : Text) :
    fourDigits? (digits ++ t) = fourDigits? digits := by
  match digits, h with
  | [_, _, _, _], _ => rfl

/-- The number of a control character is read back from its four digits. -/
theorem fourDigits?_hex : ∀ n < 0x20,
    (Numeral.hex 4 n).length = 4 ∧ fourDigits? (Numeral.hex 4 n) = some n := by
  decide

/-- A number below the surrogates is none. -/
theorem surrogate_eq_false {n : Nat} (h : n < 0xD800) :
    isHighSurrogate n = false ∧ isLowSurrogate n = false := by
  constructor
  · rw [isHighSurrogate, decide_eq_false (by omega), Bool.false_and]
  · rw [isLowSurrogate, decide_eq_false (by omega), Bool.false_and]

/-- A control character is read back from its number. -/
theorem readEscape_number {c : Char} (h : c.toNat < 0x20) (t : Text) :
    readEscape ('u' :: (Numeral.hex 4 c.toNat ++ t)) = .ok (c, 5) := by
  obtain ⟨hlen, hdigits⟩ := fourDigits?_hex _ h
  have hread : readFourDigits (Numeral.hex 4 c.toNat ++ t) = .ok c.toNat := by
    rw [readFourDigits, fourDigits?_append hlen, hdigits]
  obtain ⟨hhigh, hlow⟩ := surrogate_eq_false (n := c.toNat) (by omega)
  rw [readEscape, hread]
  simp only [bind, Except.bind, hlow, hhigh, Bool.false_eq_true, if_false, Char.ofNat_toNat]
  rfl

/-- Behind a backslash the escape gives one character, and reading goes on behind it. -/
theorem readString_backslash {t : Text} {e : Char} {n : Nat} (h : readEscape t = .ok (e, n)) :
    readString ('\\' :: t) = (readString (t.drop n)).map (Prod.map (e :: ·) id) := by
  rw [readString, if_neg (by decide), if_pos rfl, h]
  dsimp only
  cases readString (t.drop n) <;> rfl

/-- A letter of the table stands for its character. -/
theorem readString_shortEscape {x e : Char} (hx : x ≠ 'u') (h : shortEscape? x = some e)
    (t : Text) :
    readString ('\\' :: x :: t) = (readString t).map (Prod.map (e :: ·) id) := by
  have hread : readEscape (x :: t) = .ok (e, 1) := by
    unfold readEscape
    split
    · next heq => cases heq
    · next heq =>
      cases heq
      exact absurd rfl hx
    · next heq =>
      cases heq
      rw [h]
  exact readString_backslash hread

theorem readString_plain {c : Char} (hquote : c ≠ '"') (hbackslash : c ≠ '\\')
    (hcontrol : ¬ c.toNat < 0x20) (t : Text) :
    readString (c :: t) = (readString t).map (Prod.map (c :: ·) id) := by
  rw [readString, if_neg hquote, if_neg hbackslash, if_neg hcontrol]
  cases readString t <;> rfl

/-- **Reading passes over what was written for a character.** -/
theorem readString_escaped (c : Char) (t : Text) :
    readString (escaped c ++ t) = (readString t).map (Prod.map (c :: ·) id) := by
  unfold escaped
  -- eight branches: seven characters with an escape of one letter, and all others
  split
  case h_8 hquote hbackslash _ _ _ _ _ =>
    -- no escape of one letter: a number, or the character itself
    split
    · next hcontrol =>
      obtain ⟨hlen, -⟩ := fourDigits?_hex _ hcontrol
      rw [List.append_assoc, List.cons_append, List.singleton_append,
        readString_backslash (readEscape_number hcontrol t), List.drop_succ_cons,
        List.drop_left' hlen]
    · next hcontrol => exact readString_plain hquote hbackslash hcontrol t
  all_goals exact readString_shortEscape (by decide) rfl t

/-- **A string is read back** up to its closing quote, whatever stands behind it. -/
theorem readString_flatMap (t rest : Text) :
    readString (t.flatMap escaped ++ '"' :: rest) = .ok (t, rest) := by
  -- one character of the text a step
  induction t with
  | nil => rw [List.flatMap_nil, List.nil_append, readString, if_pos rfl]
  | cons c t ih =>
    rw [List.flatMap_cons, List.append_assoc, readString_escaped, ih]
    rfl

theorem string_append (t rest : Text) :
    string t ++ rest = '"' :: (t.flatMap escaped ++ '"' :: rest) := by
  rw [string, List.append_assoc, List.append_assoc]
  rfl

-- ---------------------------------------------------------------------------
-- Values
-- ---------------------------------------------------------------------------

theorem readText_string (expected : String) (t rest : Text) :
    readText expected (string t ++ rest) = .ok (t, rest) := by
  rw [string_append]
  exact readString_flatMap t rest

/-- A name that is written as a string is read as its value. -/
theorem readVariant_string {α : Type} {variants : List (String × α)} {name : String} {value : α}
    (h : variants.lookup name = some value) (rest : Text) :
    readVariant variants (string name.toList ++ rest) = .ok (value, rest) := by
  have hvariant : variant variants name.toList rest = .ok value := by
    rw [variant, String.ofList_toList, h]
  have hread : readVariant variants ('"' :: (name.toList.flatMap escaped ++ '"' :: rest)) =
      (readString (name.toList.flatMap escaped ++ '"' :: rest)).bind fun read =>
        (variant variants read.1 read.2).map (·, read.2) := rfl
  rw [string_append, hread, readString_flatMap, Except.bind, hvariant]
  rfl

-- ---------------------------------------------------------------------------
-- Lists of strings
-- ---------------------------------------------------------------------------

/-- The first item stands right behind the bracket. -/
theorem nextItem_first (value rest : Text) :
    nextItem true (string value ++ rest) = .ok (.item (string value ++ rest)) := by
  rw [string_append]
  rfl

/-- Every other item stands right behind a comma. -/
theorem nextItem_comma (value rest : Text) :
    nextItem false (',' :: (string value ++ rest)) = .ok (.item (string value ++ rest)) := by
  rw [string_append]
  rfl

theorem nextItem_end (isFirst : Bool) (rest : Text) :
    nextItem isFirst (']' :: rest) = .ok (.stop (']' :: rest)) :=
  rfl

/-- One step of reading a list. -/
theorem readTextItems_item {isFirst : Bool} {t value rest : Text}
    (h : nextItem isFirst t = .ok (.item (string value ++ rest))) :
    readTextItems isFirst t = (readTextItems false rest).map (Prod.map (value :: ·) id) := by
  rw [readTextItems, h]
  dsimp only
  rw [readText_string]
  dsimp only
  cases readTextItems false rest <;> rfl

theorem readTextItems_end (isFirst : Bool) (rest : Text) :
    readTextItems isFirst (']' :: rest) = .ok ([], ']' :: rest) := by
  rw [readTextItems, nextItem_end]

/-- The induction is on the values behind the first, each with a comma before it. -/
theorem readTextItems_flatMap (values : List Text) (rest : Text) :
    readTextItems false ((values.map string).flatMap ([','] ++ ·) ++ ']' :: rest) =
      .ok (values, ']' :: rest) := by
  induction values with
  | nil => exact readTextItems_end false rest
  | cons value values ih =>
    rw [List.map_cons, List.flatMap_cons, List.append_assoc, List.append_assoc,
      List.singleton_append, readTextItems_item (nextItem_comma value _), ih]
    rfl

/-- The items of a list are read back up to the closing bracket. -/
theorem readTextItems_join (values : List Text) (rest : Text) :
    readTextItems true (Text.join [','] (values.map string) ++ ']' :: rest) =
      .ok (values, ']' :: rest) := by
  cases values with
  | nil => exact readTextItems_end true rest
  | cons value values =>
    rw [List.map_cons, Text.join_cons, List.append_assoc,
      readTextItems_item (nextItem_first value _), readTextItems_flatMap]
    rfl

/-- A list of strings is read back. -/
theorem readTexts_list (values : List Text) (rest : Text) :
    readTexts (list (values.map string) ++ rest) = .ok (values, rest) := by
  have hlist : list (values.map string) ++ rest =
      '[' :: (Text.join [','] (values.map string) ++ ']' :: rest) := by
    rw [list, List.append_assoc, List.append_assoc]
    rfl
  -- the reader takes the items first, and then the bracket
  have hread : readTexts ('[' :: (Text.join [','] (values.map string) ++ ']' :: rest)) =
      (readTextItems true (Text.join [','] (values.map string) ++ ']' :: rest)).bind fun read =>
        (readListEnd read.2).map (read.1, ·) := rfl
  rw [hlist, hread, readTextItems_join]
  rfl

end BlockExplorer.Json

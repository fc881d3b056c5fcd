import TaskFlow.Proofs.Json.Text
import TaskFlow.Proofs.Text.Lines

namespace TaskFlow.Json

open Text (OneLine oneLine_append oneLine_cons)

theorem Plain.oneLine {cs : List Char} (h : Plain cs) : OneLine cs := by
  intro c hc
  constructor <;> rintro rfl <;> exact absurd (h _ hc) (by decide)

theorem oneLine_escape (c : Char) : OneLine (escape c) := by
  have digit : ∀ k < 16, hexDigit k ≠ '\n' ∧ hexDigit k ≠ '\r' := by decide
  unfold escape
  repeat' split
  all_goals try decide
  · next low =>
    have high := digit (c.toNat / 16) (by omega)
    have rest := digit (c.toNat % 16) (by omega)
    rw [oneLine_cons, oneLine_cons, oneLine_cons, oneLine_cons, oneLine_cons, oneLine_cons]
    exact ⟨by decide, by decide, by decide, by decide, high, rest, by decide⟩
  · next feed _ back _ => simp [OneLine, feed, back]

theorem oneLine_quote (s : String) : OneLine (quote s) := by
  rw [quote, oneLine_append, oneLine_cons]
  refine ⟨⟨by decide, fun c hc => ?_⟩, by decide⟩
  obtain ⟨d, -, hd⟩ := List.mem_flatMap.mp hc
  exact oneLine_escape d c hd

mutual

theorem oneLine_chars : (j : Json) → OneLine j.chars
  | .null => by decide
  | .bool true => by decide
  | .bool false => by decide
  | .num n => (plain_numberText n).oneLine
  | .str s => oneLine_quote s
  | .arr xs => by
    rw [chars, oneLine_append, oneLine_cons]
    exact ⟨⟨by decide, oneLine_charsOfItems xs⟩, by decide⟩
  | .obj fs => by
    rw [chars, oneLine_append, oneLine_cons]
    exact ⟨⟨by decide, oneLine_charsOfFields fs⟩, by decide⟩

theorem oneLine_charsOfItems : (xs : List Json) → OneLine (charsOfItems xs)
  | [] => by decide
  | [x] => oneLine_chars x
  | x :: y :: xs => by
    rw [charsOfItems, oneLine_append, oneLine_cons]
    exact ⟨oneLine_chars x, by decide, oneLine_charsOfItems (y :: xs)⟩

theorem oneLine_charsOfFields : (fs : List (String × Json)) → OneLine (charsOfFields fs)
  | [] => by decide
  | [(k, v)] => by
    rw [charsOfFields, oneLine_append, oneLine_cons]
    exact ⟨oneLine_quote k, by decide, oneLine_chars v⟩
  | (k, v) :: f :: fs => by
    rw [charsOfFields, oneLine_append, oneLine_append, oneLine_cons, oneLine_cons]
    exact ⟨⟨oneLine_quote k, by decide, oneLine_chars v⟩, by decide,
      oneLine_charsOfFields (f :: fs)⟩

end

theorem newline_not_mem_text (j : Json) : Text.newline ∉ Text.utf8 j.text := by
  refine Text.newline_not_mem_utf8 fun feed => ?_
  rw [text, String.toList_ofList] at feed
  exact (oneLine_chars j _ feed).1 rfl

theorem lineText?_text (j : Json) :
    Text.lineText? (Text.utf8 j.text ++ [Text.newline]) = some j.text := by
  rw [Text.lineText?, Text.fromUtf8?_newline, Text.fromUtf8?_utf8, Option.map_some,
    Option.map_some, String.toList_append, text, String.toList_ofList]
  exact congrArg (some <| String.ofList ·) (Text.chomp_newline (oneLine_chars j))

theorem StartsNumber.not_blank {c : Char} (h : StartsNumber c) : Text.isBlank c = false := by
  rcases h with rfl | digit
  · decide
  · obtain ⟨low, high⟩ := Char.isDigit_iff_toNat.mp digit
    have bounds : 48 ≤ c.toNat ∧ c.toNat ≤ 57 := ⟨low, high⟩
    by_contra blank
    simp only [Text.isBlank, Bool.not_eq_false, Bool.or_eq_true, Bool.and_eq_true,
      decide_eq_true_eq, beq_iff_eq] at blank
    omega

theorem blank_text_of_cons {j : Json} {c : Char} {cs : List Char} (chars : j.chars = c :: cs)
    (h : Text.isBlank c = false) : Text.blank j.text = false := by
  rw [Text.blank, text, String.toList_ofList, chars, List.all_cons, h, Bool.false_and]

theorem blank_text {n : Nat} {j : Json} (fits : j.Fits n) (legible : j.Legible) :
    Text.blank j.text = false := by
  cases fits with
  | null => exact blank_text_of_cons rfl (by decide)
  | bool b => cases b <;> exact blank_text_of_cons rfl (by decide)
  | num spelled =>
    obtain ⟨c, cs, chars, start⟩ := (spells_num spelled legible).start
    exact blank_text_of_cons chars start.not_blank
  | str | arr | obj => exact blank_text_of_cons rfl (by decide)

theorem trim_text_obj (fs : List (String × Json)) :
    Text.trim (Json.obj fs).text = (Json.obj fs).text := by
  rw [Text.trim, text, String.toList_ofList, chars]
  exact congrArg _ (Text.strip_between _ (by decide) (by decide))

end TaskFlow.Json

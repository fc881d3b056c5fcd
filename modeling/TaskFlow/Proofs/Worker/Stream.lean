import TaskFlow.Proofs.Text.Lines
import TaskFlow.Worker.Message

namespace TaskFlow

namespace Message

open Text

/-- The message in the bytes of a line, if they are text and hold one. -/
def ofBytes? (line : Bytes) : Option Message := (fromUtf8? line).bind fun s => (ofLine s).toOption

/-- The messages in the texts of lines, up to the first line that is not text. -/
def ofTexts (ls : List (Option String)) : List Message :=
  (ls.takeWhile Option.isSome).filterMap fun l => l.bind fun s => (ofLine s).toOption

theorem ofTexts_some (s : String) (ls : List (Option String)) :
    ofTexts (some s :: ls) = (ofLine s).toOption.toList ++ ofTexts ls := by
  cases h : (ofLine s).toOption <;> simp [ofTexts, h]

theorem ofTexts_map_fromUtf8? (ls : List Bytes) : ofTexts (ls.map fromUtf8?) =
    (ls.takeWhile fun l => (fromUtf8? l).isSome).filterMap ofBytes? := by
  rw [ofTexts, List.takeWhile_map, List.filterMap_map]
  rfl

theorem ofLine_congr {s t : String} (h : trim s = trim t) : ofLine s = ofLine t := by
  rw [ofLine, h, ofLine]

theorem ofTexts_lineText? (line : Bytes) (ls : List (Option String)) :
    ofTexts (lineText? line :: ls) = ofTexts (fromUtf8? line :: ls) := by
  rw [lineText?]
  cases fromUtf8? line with
  | none => rfl
  | some s => rw [Option.map_some, ofTexts_some, ofTexts_some, ofLine_congr (trim_chomp s)]

theorem ofTexts_newline (line : Bytes) (ls : List (Option String)) :
    ofTexts (fromUtf8? (line ++ [newline]) :: ls) = ofTexts (fromUtf8? line :: ls) := by
  rw [fromUtf8?_newline]
  cases fromUtf8? line with
  | none => rfl
  | some s => rw [Option.map_some, ofTexts_some, ofTexts_some, ofLine_congr (trim_newline s)]

theorem ofLine_empty : (ofLine "").toOption = none := by decide +kernel

theorem ofStream_eq_ofTexts (bs : Bytes) :
    ofStream bs = ofTexts ((bs.splitOn newline).map fromUtf8?) := by
  change ofTexts ((lines bs).map lineText?) = _
  -- What follows the first line feed is a shorter stream.
  induction n : bs.length using Nat.strong_induction_on generalizing bs with
  | h k ih =>
    by_cases h : newline ∈ bs
    · obtain ⟨line, rest, rfl, first⟩ := List.eq_append_cons_of_mem h
      have shorter : rest.length < k := by
        rw [← n, List.length_append, List.length_cons]
        omega
      rw [lines_append_newline rest first, List.splitOn_append_cons_self_of_not_mem first,
        List.map_cons, List.map_cons, ofTexts_lineText?, ofTexts_newline]
      have later := ih _ shorter rest rfl
      cases fromUtf8? line with
      | none => rfl
      | some s => rw [ofTexts_some, ofTexts_some, later]
    · rw [lines_of_not_mem h, List.splitOn_eq_singleton h]
      split
      · next empty =>
        subst empty
        exact (ofTexts_some "" []).trans (by rw [ofLine_empty]; rfl) |>.symm
      · exact ofTexts_lineText? bs []

/-- The messages in a stream are those of its lines, up to the first line that is not text. -/
theorem ofStream_eq_messages_of_lines (bs : Bytes) :
    ofStream bs = ((bs.splitOn newline).takeWhile fun l => (fromUtf8? l).isSome).filterMap
        ofBytes? ∧
      ((∀ l ∈ bs.splitOn newline, (fromUtf8? l).isSome = true) →
        ofStream bs = (bs.splitOn newline).filterMap ofBytes?) := by
  have texts := (ofStream_eq_ofTexts bs).trans (ofTexts_map_fromUtf8? _)
  refine ⟨texts, fun readable => ?_⟩
  rw [texts, List.takeWhile_eq_self_iff.mpr readable]

/-- A worker that writes other lines around its messages, and does not end the last one. -/
def chatter : Bytes :=
  utf8 (started.line ++ "\nreading\n" ++ (Json.obj [("type", .str "odd")]).text ++ "\n" ++
    (failed "e").toJson.text)

theorem chatter_read : (∀ l ∈ chatter.splitOn newline, (fromUtf8? l).isSome = true) ∧
    ofStream chatter = [.started, .failed "e"] := by
  have readable : ∀ l ∈ chatter.splitOn newline, (fromUtf8? l).isSome = true := by decide +kernel
  have messages : (chatter.splitOn newline).filterMap ofBytes? = [.started, .failed "e"] := by
    decide +kernel
  exact ⟨readable, ((ofStream_eq_messages_of_lines chatter).2 readable).trans messages⟩

/-- A worker that starts and fails, and writes a byte that is no text in between. -/
def interrupted : Bytes :=
  utf8 started.line ++ [0xff, newline] ++ utf8 (failed "e").line

/-- A line that is not text takes the messages after it away. -/
theorem interrupted_loses_failure :
    ofStream interrupted = [.started] ∧
      (interrupted.splitOn newline).filterMap ofBytes? = [.started, .failed "e"] := by
  decide +kernel

end Message

end TaskFlow

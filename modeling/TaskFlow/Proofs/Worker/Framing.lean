import TaskFlow.Proofs.Json.Carries
import TaskFlow.Proofs.Json.Lines
import TaskFlow.Proofs.Worker.Stream
import TaskFlow.Worker.Child

namespace TaskFlow

open Json Json.Decode

namespace Json

end Json

namespace Message

/-- Whether a message can be read back: counts have 64 bits, and a fraction is read back from its
text. -/
def Readable : Message → Prop
  | .progress fraction _ => fromText single (Number.single fraction).text = .ok fraction
  | .completed _ rows bytes => rows < UInt64.size ∧ bytes < UInt64.size
  | .started | .failed _ => True

instance : (m : Message) → Decidable m.Readable
  | .progress fraction _ => inferInstanceAs
      (Decidable (fromText single (Number.single fraction).text = .ok fraction))
  | .completed _ rows bytes =>
    inferInstanceAs (Decidable (rows < UInt64.size ∧ bytes < UInt64.size))
  | .started | .failed _ => inferInstanceAs (Decidable True)

theorem decode_progress {x : Single} {y : Number} (read : single .buffered (.num y) = .ok x) :
    decode .text (Doc.ofJson (.obj [("type", .str "progress"), ("fraction", .num y)])) =
        .ok (.progress x none) ∧
      ∀ message, decode .text (Doc.ofJson (.obj [("type", .str "progress"), ("fraction", .num y),
        ("message", .str message)])) = .ok (.progress x (some message)) := by
  cases y <;> obtain rfl := Except.ok.inj read <;> exact ⟨rfl, fun _ => rfl⟩

/-- The fields of a message beside its tag are scanned as those of an object from which the message
is read. -/
theorem toJson_scansAs {m : Message} (h : m.Readable) : ∃ k, ScansAs maxDepth m.toJson k ∧
    decode .text (Doc.ofJson k) = .ok m := by
  cases m with
  | started => exact ⟨_, scansAs_obj (.cons ((scansAs_str _).field _) .nil), rfl⟩
  | failed error =>
    exact ⟨_, scansAs_obj (.cons ((scansAs_str _).field _)
      (.cons ((scansAs_str error).field _) .nil)), rfl⟩
  | completed path rows bytes =>
    exact ⟨_, scansAs_obj (.cons ((scansAs_str _).field _)
      (.cons ((scansAs_str path).field _) (.cons ((scansAs_ofNat h.1).field _)
        (.cons ((scansAs_ofNat h.2).field _) .nil)))), rfl⟩
  | progress fraction message =>
    obtain ⟨y, number, encoded, spells⟩ := spells_fraction h
    have read := (encoded 0).again .buffered
    cases message with
    | none =>
      rw [toJson, number]
      refine ⟨_, scansAs_obj (.cons ((scansAs_str _).field _)
        (.cons ((scansAs_num spells).field _) .nil)), (decode_progress read).1⟩
    | some message =>
      rw [toJson, number]
      refine ⟨_, scansAs_obj (.cons ((scansAs_str _).field _)
        (.cons ((scansAs_num spells).field _) (.cons ((scansAs_str message).field _) .nil))),
        (decode_progress read).2 message⟩

theorem trim_toJson (m : Message) : Text.trim m.toJson.text = m.toJson.text := by
  cases m with
  | progress fraction message => cases message <;> exact trim_text_obj _
  | started | completed | failed => exact trim_text_obj _

theorem ofLine_text {m : Message} (h : m.Readable) : ofLine m.toJson.text = .ok m := by
  obtain ⟨k, scans, read⟩ := toJson_scansAs h
  have whole := fromText_scansAs "" scans read .nil rfl
  rw [String.append_empty] at whole
  rw [ofLine, trim_toJson, whole]

end Message

namespace Process

open Message

theorem utf8_line (m : Message) : Text.utf8 m.line = Text.utf8 m.toJson.text ++ [Text.newline] := by
  rw [line, Text.utf8, String.toList_append, List.flatMap_append]
  rfl

theorem outputOf_eq_flatMap (ms : List Message) :
    outputOf ms = ms.flatMap fun m => Text.utf8 m.toJson.text ++ [Text.newline] := by
  rw [outputOf]
  simp only [utf8_line]

theorem splitOn_outputOf (ms : List Message) : (outputOf ms).splitOn Text.newline =
    (ms.map fun m => Text.utf8 m.toJson.text) ++ [[]] := by
  rw [outputOf_eq_flatMap, Text.splitOn_flatMap fun m : Message => newline_not_mem_text m.toJson]

theorem ofStream_outputOf (ms : List Message) :
    ofStream (outputOf ms) = ms.filterMap fun m => (ofLine m.toJson.text).toOption := by
  have last : ofTexts [some ""] = [] := by
    rw [ofTexts_some, ofLine_empty]
    rfl
  rw [ofStream_eq_ofTexts, splitOn_outputOf, List.map_append, List.map_map]
  induction ms with
  | nil => exact last
  | cons m ms ih =>
    rw [List.map_cons, List.cons_append, Function.comp_apply, Text.fromUtf8?_utf8, ofTexts_some,
      ih, List.filterMap_cons]
    cases (ofLine m.toJson.text).toOption <;> rfl

/-- An output has one line feed for each message, the pieces between them hold the messages, and a
manager reads the messages again. -/
theorem outputOf_framed {ms : List Message} (readable : ∀ m ∈ ms, m.Readable) :
    (outputOf ms).count Text.newline = ms.length ∧
      (∃ pieces : List Text.Bytes, (outputOf ms).splitOn Text.newline = pieces ++ [[]] ∧
        pieces.map (fun p => (Text.fromUtf8? p).map ofLine) = ms.map fun m => some (.ok m)) ∧
      ofStream (outputOf ms) = ms := by
  refine ⟨?_, ⟨_, splitOn_outputOf ms, ?_⟩, ?_⟩
  · rw [outputOf_eq_flatMap, Text.count_flatMap fun m : Message => newline_not_mem_text m.toJson]
  · rw [List.map_map]
    refine List.map_congr_left fun m hm => ?_
    rw [Function.comp_apply, Text.fromUtf8?_utf8, Option.map_some, ofLine_text (readable m hm)]
  · rw [ofStream_outputOf]
    induction ms with
    | nil => rfl
    | cons m ms ih =>
      obtain ⟨first, others⟩ := List.forall_mem_cons.mp readable
      rw [List.filterMap_cons, ofLine_text first, ih others]
      rfl

def unruly : List Message :=
  [.started, .progress (.ofNat 1) none, .progress (Run.share 1 3) (some "paso\n1/3\r\n\t\"\\"),
    .completed " a\nb \n" 3 77, .failed "\x00\n\x7b\"type\":\"started\"\x7d\u2028"]

theorem unruly_framed : (∀ m ∈ unruly, m.Readable) ∧
    (outputOf unruly).count Text.newline = 5 ∧ ofStream (outputOf unruly) = unruly := by
  have readable : ∀ m ∈ unruly, m.Readable := by decide +kernel
  obtain ⟨feeds, -, read⟩ := outputOf_framed readable
  exact ⟨readable, feeds, read⟩

end Process

end TaskFlow

import TaskFlow.Csv.Writer
import TaskFlow.Proofs.Json.Fits
import TaskFlow.Proofs.Text.Trim

namespace TaskFlow.Csv

open Text (Bytes)

variable {b : UInt8} {bs rest : Bytes} {c : Char} {cs : List Char} {s : String}
  {ss : List String} {m : Mode} {fields : List Bytes} {field : Bytes} {d e : Draft}

/-- The fields of the records in the bytes, given those of the record that has been started; its
last field stands in reverse. -/
def contents (m : Mode) (fields : List Bytes) (field : Bytes) (bs : Bytes) : List (List Bytes) :=
  (recordsFrom m ⟨⟨0, 0, 0⟩, 0, 0, fields, field⟩ bs).map (·.fields)

def Draft.Alike (d e : Draft) : Prop := d.fields = e.fields ∧ d.field = e.field

/-- Two steps that do the same to drafts with the same fields. -/
inductive Step.Alike : Step → Step → Prop
  | go (m : Mode) {d e : Draft} : d.Alike e → Alike (.go m d) (.go m e)
  | done (m : Mode) {d e : Draft} : d.Alike e → Alike (.done m d) (.done m e)

theorem Draft.Alike.advance (h : d.Alike e) (b : UInt8) : (d.advance b).Alike (e.advance b) := h

theorem Draft.Alike.push (h : d.Alike e) (b : UInt8) : (d.push b).Alike (e.push b) :=
  ⟨h.1, congrArg (b :: ·) h.2⟩

theorem Draft.Alike.endField (h : d.Alike e) : d.endField.Alike e.endField := by
  refine ⟨?_, rfl⟩
  rw [Draft.endField, Draft.endField, h.1, h.2]

theorem inField_alike (h : d.Alike e) (b : UInt8) : (inField d b).Alike (inField e b) := by
  unfold inField
  split_ifs
  · exact .go _ (h.endField.advance b)
  · exact .done _ (h.advance b)
  · exact .go _ ((h.push b).advance b)

theorem atStart_alike (h : d.Alike e) (b : UInt8) : (atStart d b).Alike (atStart e b) := by
  unfold atStart
  split_ifs
  · exact .go _ (h.advance b)
  · exact inField_alike h b

theorem step_alike (m : Mode) (h : d.Alike e) (b : UInt8) : (step m d b).Alike (step m e b) := by
  cases m <;> unfold step <;> dsimp only
  case between | afterReturn =>
    split_ifs
    · exact .go _ (h.advance b)
    · exact atStart_alike h b
  case fieldStart => exact atStart_alike h b
  case plain => exact inField_alike h b
  case quoted =>
    split_ifs
    · exact .go _ (h.advance b)
    · exact .go _ ((h.push b).advance b)
  case quoteSeen =>
    split_ifs
    · exact .go _ ((h.push b).advance b)
    · exact inField_alike h b

theorem map_fields_recordsFrom_alike (m : Mode) (h : d.Alike e) (bs : Bytes) :
    (recordsFrom m d bs).map (·.fields) = (recordsFrom m e bs).map (·.fields) := by
  induction bs generalizing m d e with
  | nil =>
    rw [recordsFrom, recordsFrom]
    split_ifs
    · rfl
    · exact congrArg ([·]) h.endField.1
  | cons b bs ih =>
    rw [recordsFrom, recordsFrom]
    have alike := step_alike m h b
    revert alike
    generalize step m d b = x, step m e b = y
    rintro (⟨m, h⟩ | ⟨m, h⟩)
    · exact ih m h
    · -- the next record starts without fields, whatever the draft was
      exact congrArg₂ List.cons h.endField.1 (ih m ⟨rfl, rfl⟩)

theorem map_fields_recordsFrom (m : Mode) (d : Draft) (bs : Bytes) :
    (recordsFrom m d bs).map (·.fields) = contents m d.fields d.field bs := by
  have alike : d.Alike ⟨⟨0, 0, 0⟩, 0, 0, d.fields, d.field⟩ := ⟨rfl, rfl⟩
  exact map_fields_recordsFrom_alike m alike bs

theorem contents_cons (m : Mode) (fields : List Bytes) (field : Bytes) (b : UInt8) (bs : Bytes) :
    contents m fields field (b :: bs) =
      match step m ⟨⟨0, 0, 0⟩, 0, 0, fields, field⟩ b with
      | .go m d => contents m d.fields d.field bs
      | .done m d => d.endField.fields :: contents m [] [] bs := by
  rw [contents, recordsFrom]
  cases step m ⟨⟨0, 0, 0⟩, 0, 0, fields, field⟩ b with
  | go m d => exact map_fields_recordsFrom m d bs
  | done m d => exact congrArg (_ :: ·) (map_fields_recordsFrom m d.next bs)

def Mode.Open (m : Mode) : Prop := m = .fieldStart ∨ m = .plain ∨ m = .quoteSeen

theorem contents_comma (h : m.Open) :
    contents m fields field (comma :: bs) =
      contents .fieldStart (fields ++ [field.reverse]) [] bs := by
  rcases h with rfl | rfl | rfl <;> exact contents_cons ..

theorem contents_lineFeed (h : m.Open) :
    contents m fields field (lineFeed :: bs) =
      (fields ++ [field.reverse]) :: contents .between [] [] bs := by
  rcases h with rfl | rfl | rfl <;> exact contents_cons ..

theorem contents_open : contents .fieldStart fields field (quote :: bs) =
    contents .quoted fields field bs := contents_cons ..

theorem contents_close : contents .quoted fields field (quote :: bs) =
    contents .quoteSeen fields field bs := contents_cons ..

theorem contents_doubled : contents .quoteSeen fields field (quote :: bs) =
    contents .quoted fields (quote :: field) bs := contents_cons ..

theorem contents_quoted (h : b ≠ quote) : contents .quoted fields field (b :: bs) =
    contents .quoted fields (b :: field) bs := by
  rw [contents_cons, step, if_neg h]
  rfl

def Marks (b : UInt8) : Prop := b = comma ∨ b = quote ∨ b = lineFeed ∨ b = carriageReturn

theorem endsRecord_of_not_marks (h : ¬Marks b) : endsRecord b = false := by
  simp only [Marks, not_or] at h
  simp [endsRecord, h]

theorem contents_plain (hm : m = .fieldStart ∨ m = .plain) (h : ¬Marks b) :
    contents m fields field (b :: bs) = contents .plain fields (b :: field) bs := by
  have inside (d : Draft) : inField d b = .go .plain ((d.push b).advance b) := by
    rw [inField, if_neg fun h' => h (.inl h'), endsRecord_of_not_marks h,
      if_neg Bool.false_ne_true]
  rw [contents_cons]
  rcases hm with rfl | rfl
  · rw [step, atStart, if_neg fun h' => h (.inr (.inl h')), inside]
    rfl
  · rw [step, inside]
    rfl

theorem contents_between (h : endsRecord b = false) :
    contents .between fields field (b :: bs) = contents .fieldStart fields field (b :: bs) := by
  rw [contents_cons, contents_cons, step, if_neg (by rw [h]; exact Bool.false_ne_true)]
  rfl

def spelled (cs : List Char) : Bytes := cs.flatMap String.utf8EncodeChar

theorem spelled_cons : spelled (c :: cs) = String.utf8EncodeChar c ++ spelled cs :=
  List.flatMap_cons

theorem spelled_append (cs ds : List Char) : spelled (cs ++ ds) = spelled cs ++ spelled ds :=
  List.flatMap_append

theorem utf8_ofList (cs : List Char) : Text.utf8 (.ofList cs) = spelled cs := by
  rw [Text.utf8, String.toList_ofList, spelled]

theorem not_marks_of_mem (h : b ∈ String.utf8EncodeChar c) (plain : needsQuotes c = false) :
    ¬Marks b := by
  simp only [needsQuotes, Bool.or_eq_false_iff, decide_eq_false_iff_not] at plain
  obtain ⟨⟨⟨comma, quote⟩, feed⟩, ret⟩ := plain
  rintro (same | same | same | same)
  · exact comma ((Text.eq_ascii_iff_of_mem h (k := ',') (by decide)).mp same)
  · exact quote ((Text.eq_ascii_iff_of_mem h (k := '"') (by decide)).mp same)
  · exact feed ((Text.eq_ascii_iff_of_mem h (k := '\n') (by decide)).mp same)
  · exact ret ((Text.eq_ascii_iff_of_mem h (k := '\r') (by decide)).mp same)

theorem contents_append (goesOn : ∀ b ∈ bs, ∀ field rest,
      contents m fields field (b :: rest) = contents m fields (b :: field) rest) :
    contents m fields field (bs ++ rest) = contents m fields (bs.reverse ++ field) rest := by
  induction bs generalizing field with
  | nil => rfl
  | cons b bs ih =>
    obtain ⟨first, others⟩ := List.forall_mem_cons.mp goesOn
    rw [List.cons_append, first, ih others, List.reverse_cons, List.append_assoc,
      List.singleton_append]

theorem contents_doubled_append (cs : List Char) :
    contents .quoted fields field (spelled (doubled cs) ++ rest) =
      contents .quoted fields ((spelled cs).reverse ++ field) rest := by
  induction cs generalizing field with
  | nil => rfl
  | cons c cs ih =>
    rw [doubled, spelled_cons, List.reverse_append, List.append_assoc]
    split_ifs with same
    · subst same
      have quotes : spelled ('"' :: '"' :: doubled cs) ++ rest =
          quote :: quote :: (spelled (doubled cs) ++ rest) := rfl
      rw [quotes, contents_close, contents_doubled, ih]
      rfl
    · have other : ∀ b ∈ String.utf8EncodeChar c, b ≠ quote := fun b hb h =>
        same ((Text.eq_ascii_iff_of_mem hb (k := '"') (by decide)).mp h)
      rw [spelled_cons, List.append_assoc,
        contents_append fun b hb _ _ => contents_quoted (other b hb), ih]

theorem contents_field (fields : List Bytes) (s : String) :
    ∃ m : Mode, m.Open ∧ ∀ rest, contents .fieldStart fields [] (spelled (fieldChars s) ++ rest) =
      contents m fields (Text.utf8 s).reverse rest := by
  have bytes : Text.utf8 s = spelled s.toList := rfl
  unfold fieldChars
  split_ifs with quotes
  · refine ⟨.quoteSeen, .inr (.inr rfl), fun rest => ?_⟩
    have shape : spelled ('"' :: doubled s.toList ++ ['"']) ++ rest =
        quote :: (spelled (doubled s.toList) ++ quote :: rest) := by
      rw [List.cons_append, spelled_cons, spelled_append, List.append_assoc, List.append_assoc]
      rfl
    rw [shape, contents_open, contents_doubled_append, contents_close, List.append_nil, bytes]
  · have plain : ∀ b ∈ spelled s.toList, ¬Marks b := by
      intro b hb
      obtain ⟨c, hc, hb⟩ := List.mem_flatMap.mp hb
      refine not_marks_of_mem hb (Bool.eq_false_iff.mpr fun h => quotes ?_)
      exact List.any_eq_true.mpr ⟨c, hc, h⟩
    rw [← bytes] at plain ⊢
    cases h : Text.utf8 s with
    | nil => exact ⟨.fieldStart, .inl rfl, fun _ => rfl⟩
    | cons b bs =>
      rw [h] at plain
      obtain ⟨hb, hbs⟩ := List.forall_mem_cons.mp plain
      refine ⟨.plain, .inr (.inl rfl), fun rest => ?_⟩
      rw [List.cons_append, contents_plain (.inl rfl) hb,
        contents_append fun b hb _ _ => contents_plain (.inr rfl) (hbs b hb), List.reverse_cons]

def joined (ss : List String) : List Char := ((ss.map fieldChars).intersperse [',']).flatten

theorem joined_cons (s t : String) (ss : List String) :
    joined (s :: t :: ss) = fieldChars s ++ ',' :: joined (t :: ss) := rfl

theorem joined_singleton (s : String) : joined [s] = fieldChars s := List.append_nil _

theorem contents_joined (s : String) (ss : List String) (fields : List Bytes) (rest : Bytes) :
    contents .fieldStart fields [] (spelled (joined (s :: ss)) ++ lineFeed :: rest) =
      (fields ++ (s :: ss).map Text.utf8) :: contents .between [] [] rest := by
  induction ss generalizing s fields with
  | nil =>
    obtain ⟨m, opens, read⟩ := contents_field fields s
    rw [joined_singleton, read, contents_lineFeed opens, List.reverse_reverse]
    rfl
  | cons t ss ih =>
    obtain ⟨m, opens, read⟩ := contents_field fields s
    have comma : spelled (',' :: joined (t :: ss)) = comma :: spelled (joined (t :: ss)) := rfl
    rw [joined_cons, spelled_append, List.append_assoc, read, comma, List.cons_append,
      contents_comma opens, List.reverse_reverse, ih, List.append_assoc]
    rfl

theorem recordChars_eq (ss : List String) :
    recordChars ss = (if joined ss = [] then ['"', '"'] else joined ss) ++ ['\n'] := by
  rw [recordChars, ← joined]
  cases joined ss <;> rfl

theorem of_joined_eq_nil (h : joined (s :: ss) = []) : s = "" ∧ ss = [] := by
  cases ss with
  | nil =>
    rw [joined_singleton, fieldChars] at h
    split_ifs at h
    · cases h
    · exact ⟨String.toList_eq_nil_iff.mp h, rfl⟩
  | cons t ss =>
    rw [joined_cons] at h
    cases (List.append_eq_nil_iff.mp h).2

/-- The first character of a record: one that stands for quotes or a separator, or the first of the
first field. -/
theorem head?_recordChars (s : String) (ss : List String) :
    ∃ c, (recordChars (s :: ss)).head? = some c ∧
      (c = '"' ∨ c = ',' ∨ needsQuotes c = false ∧ s.toList.head? = some c) := by
  have first : ∃ tail, joined (s :: ss) = fieldChars s ++ tail ∧
      (tail = [] ∨ ∃ cs, tail = ',' :: cs) := by
    cases ss with
    | nil => exact ⟨[], by rw [joined_singleton, List.append_nil], .inl rfl⟩
    | cons t ss => exact ⟨_, joined_cons s t ss, .inr ⟨_, rfl⟩⟩
  obtain ⟨tail, shape, ends⟩ := first
  rw [recordChars_eq, shape]
  unfold fieldChars
  by_cases quotes : s.toList.any needsQuotes = true
  · rw [if_pos quotes]
    exact ⟨'"', rfl, .inl rfl⟩
  · rw [if_neg quotes]
    cases cs : s.toList with
    | nil =>
      rcases ends with rfl | ⟨cs, rfl⟩
      · exact ⟨'"', rfl, .inl rfl⟩
      · exact ⟨',', rfl, .inr (.inl rfl)⟩
    | cons c cs' =>
      refine ⟨c, rfl, .inr (.inr ⟨Bool.eq_false_iff.mpr fun h => quotes ?_, rfl⟩)⟩
      rw [cs]
      exact List.any_eq_true.mpr ⟨c, List.mem_cons_self .., h⟩

theorem contents_recordChars (s : String) (ss : List String) (rest : Bytes) :
    contents .between [] [] (spelled (recordChars (s :: ss)) ++ rest) =
      (s :: ss).map Text.utf8 :: contents .between [] [] rest := by
  obtain ⟨c, first, kind⟩ := head?_recordChars s ss
  obtain ⟨b, bs, start⟩ : ∃ b bs, String.utf8EncodeChar c = b :: bs :=
    List.exists_cons_of_ne_nil String.utf8EncodeChar_ne_nil
  have ends : endsRecord b = false := by
    have there : b ∈ String.utf8EncodeChar c := start ▸ List.mem_cons_self ..
    rcases kind with rfl | rfl | ⟨plain, -⟩
    · cases start
      rfl
    · cases start
      rfl
    · exact endsRecord_of_not_marks (not_marks_of_mem there plain)
  have begins : contents .between [] [] (spelled (recordChars (s :: ss)) ++ rest) =
      contents .fieldStart [] [] (spelled (recordChars (s :: ss)) ++ rest) := by
    obtain ⟨cs, shape⟩ := List.head?_eq_some_iff.mp first
    rw [shape, spelled_cons, start, List.cons_append, List.cons_append, contents_between ends]
  rw [begins, recordChars_eq]
  split_ifs with empty
  · -- without the two quotes the line would be empty, and empty lines are no records
    obtain ⟨rfl, rfl⟩ := of_joined_eq_nil empty
    have shape : spelled (['"', '"'] ++ ['\n']) ++ rest = quote :: quote :: lineFeed :: rest := rfl
    rw [shape, contents_open, contents_close, contents_lineFeed (.inr (.inr rfl))]
    rfl
  · rw [spelled_append, List.append_assoc]
    exact contents_joined s ss [] rest

theorem contents_recordsText {records : List (List String)} (h : ∀ r ∈ records, r ≠ []) :
    contents .between [] [] (Text.utf8 (recordsText records)) =
      records.map fun r => r.map Text.utf8 := by
  rw [recordsText, utf8_ofList]
  induction records with
  | nil => rfl
  | cons r records ih =>
    obtain ⟨some, others⟩ := List.forall_mem_cons.mp h
    obtain ⟨s, ss, rfl⟩ := List.exists_cons_of_ne_nil some
    rw [List.flatMap_cons, spelled_append, contents_recordChars, ih others]
    rfl

theorem head?_of_byteOrderMark (h : (Text.utf8 s).take 3 = byteOrderMark) :
    s.toList.head? = some '\ufeff' := by
  have bytes : Text.utf8 s = String.utf8EncodeChar '\ufeff' ++ (Text.utf8 s).drop 3 := by
    conv_lhs => rw [← List.take_append_drop 3 (Text.utf8 s), h]
    rfl
  have pieces : s.toList.map some =
      some '\ufeff' :: Text.pieces ((Text.utf8 s).drop 3) := by
    rw [← Text.pieces_encode, ← Text.utf8, bytes, Text.pieces, Text.Utf8.piecesFrom_encode]
    rfl
  cases cs : s.toList with
  | nil =>
    rw [cs] at pieces
    cases pieces
  | cons c cs' =>
    rw [cs] at pieces
    exact (List.cons.inj pieces).1

/-- Records are read as the bytes of their fields, unless a byte order mark in the first one would
be taken for that of the file. -/
theorem map_fields_records (s : String) (ss : List String) {rs : List (List String)}
    (unmarked : s.toList.head? ≠ some '\ufeff') (h : ∀ r ∈ rs, r ≠ []) :
    (records (Text.utf8 (recordsText ((s :: ss) :: rs)))).map (·.fields) =
      ((s :: ss) :: rs).map fun r => r.map Text.utf8 := by
  have some : ∀ r ∈ (s :: ss) :: rs, r ≠ [] := List.forall_mem_cons.mpr ⟨by simp, h⟩
  have skip : (Text.utf8 (recordsText ((s :: ss) :: rs))).take 3 ≠ byteOrderMark := by
    intro mark
    have first := head?_of_byteOrderMark mark
    obtain ⟨c, start, kind⟩ := head?_recordChars s ss
    rw [recordsText, String.toList_ofList, List.flatMap_cons, List.head?_append, start] at first
    obtain rfl : c = '\ufeff' := Option.some.inj first
    rcases kind with quote | comma | ⟨-, same⟩
    · exact absurd quote (by decide)
    · exact absurd comma (by decide)
    · exact unmarked same
  rw [records, if_neg skip, map_fields_recordsFrom]
  exact contents_recordsText some

def isAsciiBlankChar (c : Char) : Bool :=
  c = '\t' || c = '\n' || c = '\x0c' || c = '\r' || c = ' '

theorem isBlank_of_isAsciiBlankChar (c : Char) (h : isAsciiBlankChar c = true) :
    Text.isBlank c = true := by
  simp only [isAsciiBlankChar, Bool.or_eq_true, decide_eq_true_eq] at h
  rcases h with (((rfl | rfl) | rfl) | rfl) | rfl <;> rfl

theorem isAsciiBlank_of_mem (h : b ∈ String.utf8EncodeChar c) :
    isAsciiBlank b = isAsciiBlankChar c := by
  have like {k : Char} (ascii : k.toNat < 0x80) := Text.eq_ascii_iff_of_mem h ascii
  rw [Bool.eq_iff_iff]
  simp only [isAsciiBlank, isAsciiBlankChar, Bool.or_eq_true, decide_eq_true_eq]
  exact or_congr (or_congr (or_congr (or_congr (like (k := '\t') (by decide))
    (like (k := '\n') (by decide))) (like (k := '\x0c') (by decide)))
      (like (k := '\r') (by decide))) (like (k := ' ') (by decide))

def stripped (s : String) : String := .ofList (Text.strip isAsciiBlankChar s.toList)

/-- White space of ASCII is taken from the ends of a field as it is from those of its text. -/
theorem strip_utf8 (s : String) :
    Text.strip isAsciiBlank (Text.utf8 s) = Text.utf8 (stripped s) := by
  rw [stripped, utf8_ofList]
  exact Text.strip_flatMap (fun _ => String.utf8EncodeChar_ne_nil)
    (fun _ _ => isAsciiBlank_of_mem) _

theorem trim_stripped (s : String) : Text.trim (stripped s) = Text.trim s := by
  rw [stripped, Text.trim, Text.trim, String.toList_ofList,
    Text.strip_strip isBlank_of_isAsciiBlankChar]

theorem textsFrom_utf8 (o : Origin) (i : Nat) (ss : List String) :
    textsFrom o i (ss.map Text.utf8) = .ok ss := by
  induction ss generalizing i with
  | nil => rfl
  | cons s ss ih =>
    rw [List.map_cons, textsFrom, Text.fromUtf8?_utf8]
    exact bind_eq_ok.mpr ⟨ss, ih (i + 1), rfl⟩

/-- The header is read as the names that trimming and byte order marks leave of its fields. -/
theorem headers_of_fields {r : RawRecord} (h : r.fields = ss.map Text.utf8)
    (rs : List RawRecord) : headers (r :: rs) = .ok (ss.map cleanHeader) := by
  refine bind_eq_ok.mpr ⟨ss, ?_, rfl⟩
  rw [RawRecord.texts, h, textsFrom_utf8]

theorem dataTexts_of_fields {r : RawRecord} (h : r.fields = ss.map Text.utf8) :
    dataTexts r = .ok (ss.map Text.trim) := by
  have fields : r.trimmed.fields = (ss.map stripped).map Text.utf8 := by
    simp only [RawRecord.trimmed, h, List.map_map, Function.comp_def, strip_utf8]
  have texts : r.trimmed.texts = .ok (ss.map stripped) := by
    rw [RawRecord.texts, fields, textsFrom_utf8]
  have trimmed : (ss.map stripped).map Text.trim = ss.map Text.trim := by
    simp only [List.map_map, Function.comp_def, trim_stripped]
  exact bind_eq_ok.mpr ⟨_, texts, congrArg Except.ok trimmed⟩

end TaskFlow.Csv

import Mathlib.Data.String.Basic
import TaskFlow.Text.Lines

namespace TaskFlow.Text

namespace Utf8

variable {n : Nat}

theorem lead_one (h : n < 0x80) : lead n = .whole (.ofNat n) := if_pos h

theorem lead_two (low : 0xc2 ≤ n) (high : n ≤ 0xdf) :
    lead n = .more ⟨1, n - 0xc0, 0x80, 0xbf⟩ := by
  rw [lead, if_neg (by omega), if_neg (by omega), if_pos high]

theorem lead_three (low : 0xe0 ≤ n) (high : n ≤ 0xef) :
    lead n = .more ⟨2, n - 0xe0, if n = 0xe0 then 0xa0 else 0x80,
      if n = 0xed then 0x9f else 0xbf⟩ := by
  rw [lead, if_neg (by omega), if_neg (by omega), if_neg (by omega)]
  split
  · next h => subst h; rfl
  · split
    · next h => subst h; rfl
    · rfl

theorem lead_four (low : 0xf0 ≤ n) (high : n ≤ 0xf4) :
    lead n = .more ⟨3, n - 0xf0, if n = 0xf0 then 0x90 else 0x80,
      if n = 0xf4 then 0x8f else 0xbf⟩ := by
  rw [lead, if_neg (by omega), if_neg (by omega), if_neg (by omega), if_neg (by omega),
    if_neg (by omega), if_neg (by omega)]
  split
  · next h => subst h; rfl
  · split
    · rw [if_neg (by omega)]
    · obtain rfl : n = 0xf4 := by omega
      rfl

theorem lead_bad (low : 0x80 ≤ n) (h : n < 0xc2 ∨ 0xf4 < n) : lead n = .bad := by
  rw [lead, if_neg (by omega)]
  split
  · rfl
  · repeat rw [if_neg (by omega)]

theorem low_of_lead {u : Unfinished} (h : lead n = .more u) : 0x80 ≤ u.low := by
  unfold lead at h
  split at h
  · cases h
  · repeat' split at h
    all_goals cases h
    all_goals exact Nat.le_of_ble_eq_true rfl

theorem toNat_ofNat (h : n < 256) : (UInt8.ofNat n).toNat = n := by
  simpa using h

theorem piecesFrom_more {u : Unfinished} {b : UInt8} {bs : Bytes} (h : lead b.toNat = .more u) :
    piecesFrom none (b :: bs) = piecesFrom (some u) bs := by
  rw [piecesFrom, h]

theorem piecesFrom_next {u : Unfinished} {bs : Bytes} (missing : 1 < u.missing) (low : u.low ≤ n)
    (high : n ≤ u.high) (byte : n < 256) :
    piecesFrom (some u) (UInt8.ofNat n :: bs) =
      piecesFrom (some ⟨u.missing - 1, u.value * 64 + (n - 0x80), 0x80, 0xbf⟩) bs := by
  rw [piecesFrom, toNat_ofNat byte, if_pos ⟨low, high⟩, if_neg (by omega)]

theorem piecesFrom_last {u : Unfinished} {bs : Bytes} (missing : u.missing = 1) (low : u.low ≤ n)
    (high : n ≤ u.high) (byte : n < 256) :
    piecesFrom (some u) (UInt8.ofNat n :: bs) =
      some (.ofNat (u.value * 64 + (n - 0x80))) :: piecesFrom none bs := by
  rw [piecesFrom, toNat_ofNat byte, if_pos ⟨low, high⟩, if_pos (by omega)]

theorem piecesFrom_encode (c : Char) (bs : Bytes) :
    piecesFrom none (String.utf8EncodeChar c ++ bs) = some c :: piecesFrom none bs := by
  have valid : c.toNat < 0xd800 ∨ 0xdfff < c.toNat ∧ c.toNat < 0x110000 := c.valid
  have whole {v : Nat} (h : v = c.toNat) :
      some (Char.ofNat v) :: piecesFrom none bs = some c :: piecesFrom none bs := by
    rw [h, Char.ofNat_toNat]
  have value : c.val.toNat = c.toNat := rfl
  -- One case for each length of the encoding.
  simp only [String.utf8EncodeChar, value]
  generalize c.toNat = v at valid whole
  split
  · rw [List.singleton_append, piecesFrom, toNat_ofNat (by omega), lead_one (by omega)]
    exact whole rfl
  · split
    · have first := lead_two (n := v / 64 % 32 + 192) (by omega) (by omega)
      rw [← toNat_ofNat (n := v / 64 % 32 + 192) (by omega)] at first
      simp only [List.cons_append, List.nil_append]
      rw [piecesFrom_more first, toNat_ofNat (by omega),
        piecesFrom_last rfl (by simp only; omega) (by simp only; omega) (by omega)]
      exact whole (by simp only; omega)
    · split
      · have first := lead_three (n := v / 4096 % 16 + 224) (by omega) (by omega)
        rw [← toNat_ofNat (n := v / 4096 % 16 + 224) (by omega)] at first
        simp only [List.cons_append, List.nil_append]
        rw [piecesFrom_more first, toNat_ofNat (by omega),
          piecesFrom_next (by simp only; omega) (by simp only; split <;> omega)
            (by simp only; split <;> omega) (by omega),
          piecesFrom_last rfl (by simp only; omega) (by simp only; omega) (by omega)]
        exact whole (by simp only; omega)
      · have first := lead_four (n := v / 262144 % 8 + 240) (by omega) (by omega)
        rw [← toNat_ofNat (n := v / 262144 % 8 + 240) (by omega)] at first
        simp only [List.cons_append, List.nil_append]
        rw [piecesFrom_more first, toNat_ofNat (by omega),
          piecesFrom_next (by simp only; omega) (by simp only; split <;> omega)
            (by simp only; split <;> omega) (by omega),
          piecesFrom_next (by simp only; omega) (by simp only; omega) (by simp only; omega)
            (by omega),
          piecesFrom_last rfl (by simp only; omega) (by simp only; omega) (by omega)]
        exact whole (by simp only; omega)

theorem piecesFrom_newline (o : Option Unfinished) (low : ∀ u ∈ o, 0x80 ≤ u.low)
    (bs rest : Bytes) :
    piecesFrom o (bs ++ newline :: rest) =
      piecesFrom o bs ++ some '\n' :: piecesFrom none rest := by
  have started {b : UInt8} {u : Unfinished} (h : lead b.toNat = .more u) :
      ∀ v ∈ some u, 0x80 ≤ v.low := fun v hv => Option.mem_some.mp hv ▸ low_of_lead h
  have feed : lead newline.toNat = .whole '\n' := rfl
  induction bs generalizing o with
  | nil =>
    cases o with
    | none => simp only [List.nil_append, piecesFrom, feed]
    | some u =>
      have early : ¬(u.low ≤ newline.toNat ∧ newline.toNat ≤ u.high) := by
        have := low u rfl
        rw [show newline.toNat = 10 from rfl]
        omega
      simp only [List.nil_append, piecesFrom, if_neg early, feed, List.cons_append]
  | cons b bs ih =>
    have fresh := ih none (by simp)
    cases o with
    | none =>
      simp only [List.cons_append, piecesFrom]
      cases h : lead b.toNat with
      | whole c => simp only [fresh, List.cons_append]
      | more u => exact ih _ (started h)
      | bad => simp only [fresh, List.cons_append]
    | some u =>
      simp only [List.cons_append, piecesFrom]
      split
      · split
        · rw [fresh, List.cons_append]
        · exact ih _ (by simp)
      · rw [List.cons_append]
        cases h : lead b.toNat with
        | whole c => simp only [fresh, List.cons_append]
        | more v => simp only [ih _ (started h)]
        | bad => simp only [fresh, List.cons_append]

theorem exists_of_piecesFrom_some {u : Unfinished} {bs : Bytes} {cs : List Char}
    (h : piecesFrom (some u) bs = cs.map some) :
    ∃ b rest, bs = b :: rest ∧ u.low ≤ b.toNat ∧ b.toNat ≤ u.high ∧
      let value := u.value * 64 + (b.toNat - 0x80)
      (if u.missing ≤ 1 then some (.ofNat value) :: piecesFrom none rest
        else piecesFrom (some ⟨u.missing - 1, value, 0x80, 0xbf⟩) rest) = cs.map some := by
  have unbroken {ps : List (Option Char)} : none :: ps ≠ cs.map some := by
    cases cs <;> simp
  cases bs with
  | nil => exact absurd (piecesFrom.eq_2 u ▸ h) unbroken
  | cons b rest =>
    rw [piecesFrom] at h
    split at h
    · next fits => exact ⟨b, rest, rfl, fits.1, fits.2, h⟩
    · exact absurd h unbroken

theorem val_ofNat {v : Nat} (valid : v < 0xd800 ∨ 0xdfff < v ∧ v < 0x110000) :
    (Char.ofNat v).val.toNat = v := by
  rw [Char.ofNat, dif_pos valid]
  rfl

theorem ofNat_eq {m : Nat} {b : UInt8} (h : b.toNat = m) : UInt8.ofNat m = b := by
  rw [← h, UInt8.ofNat_toNat]

section Encoding

variable {a b c d : UInt8}

theorem encode_one (h : a.toNat < 0x80) : String.utf8EncodeChar (.ofNat a.toNat) = [a] := by
  simp only [String.utf8EncodeChar, val_ofNat (.inl (by omega : a.toNat < 0xd800))]
  rw [if_pos (by omega), ofNat_eq rfl]

theorem encode_two {v : Nat} (value : v = (a.toNat - 0xc0) * 64 + (b.toNat - 0x80))
    (ha : 0xc2 ≤ a.toNat ∧ a.toNat ≤ 0xdf) (hb : 0x80 ≤ b.toNat ∧ b.toNat ≤ 0xbf) :
    String.utf8EncodeChar (.ofNat v) = [a, b] := by
  simp only [String.utf8EncodeChar, val_ofNat (.inl (by omega : v < 0xd800))]
  rw [if_neg (by omega), if_pos (by omega), ofNat_eq (b := a) (by omega),
    ofNat_eq (b := b) (by omega)]

theorem encode_three {v : Nat}
    (value : v = ((a.toNat - 0xe0) * 64 + (b.toNat - 0x80)) * 64 + (c.toNat - 0x80))
    (ha : 0xe0 ≤ a.toNat ∧ a.toNat ≤ 0xef) (hb : 0x80 ≤ b.toNat ∧ b.toNat ≤ 0xbf)
    (shortest : a.toNat = 0xe0 → 0xa0 ≤ b.toNat) (whole : a.toNat = 0xed → b.toNat ≤ 0x9f)
    (hc : 0x80 ≤ c.toNat ∧ c.toNat ≤ 0xbf) :
    String.utf8EncodeChar (.ofNat v) = [a, b, c] := by
  simp only [String.utf8EncodeChar, val_ofNat (v := v) (by omega)]
  rw [if_neg (by omega), if_neg (by omega), if_pos (by omega), ofNat_eq (b := a) (by omega),
    ofNat_eq (b := b) (by omega), ofNat_eq (b := c) (by omega)]

theorem encode_four {v : Nat}
    (value : v = (((a.toNat - 0xf0) * 64 + (b.toNat - 0x80)) * 64 + (c.toNat - 0x80)) * 64 +
      (d.toNat - 0x80))
    (ha : 0xf0 ≤ a.toNat ∧ a.toNat ≤ 0xf4) (hb : 0x80 ≤ b.toNat ∧ b.toNat ≤ 0xbf)
    (shortest : a.toNat = 0xf0 → 0x90 ≤ b.toNat) (last : a.toNat = 0xf4 → b.toNat ≤ 0x8f)
    (hc : 0x80 ≤ c.toNat ∧ c.toNat ≤ 0xbf) (hd : 0x80 ≤ d.toNat ∧ d.toNat ≤ 0xbf) :
    String.utf8EncodeChar (.ofNat v) = [a, b, c, d] := by
  simp only [String.utf8EncodeChar, val_ofNat (v := v) (by omega)]
  rw [if_neg (by omega), if_neg (by omega), if_neg (by omega), ofNat_eq (b := a) (by omega),
    ofNat_eq (b := b) (by omega), ofNat_eq (b := c) (by omega), ofNat_eq (b := d) (by omega)]

end Encoding

theorem exists_of_piecesFrom_none {a : UInt8} {bs : Bytes} {cs : List Char}
    (h : piecesFrom none (a :: bs) = cs.map some) :
    ∃ c rest ds, cs = c :: ds ∧ a :: bs = String.utf8EncodeChar c ++ rest ∧
      piecesFrom none rest = ds.map some := by
  have started {v : Nat} {front rest : Bytes} (encoded : String.utf8EncodeChar (.ofNat v) = front)
      (whole : a :: bs = front ++ rest)
      (h : some (.ofNat v) :: piecesFrom none rest = cs.map some) :
      ∃ c rest ds, cs = c :: ds ∧ a :: bs = String.utf8EncodeChar c ++ rest ∧
        piecesFrom none rest = ds.map some := by
    obtain ⟨c, ds, rfl, hc, hds⟩ := List.map_eq_cons_iff.mp h.symm
    exact ⟨c, rest, ds, rfl, by rw [Option.some.inj hc, encoded, whole], hds.symm⟩
  -- one case for each length of an encoding, told by the first byte
  rcases Nat.lt_or_ge a.toNat 0x80 with one | more
  · rw [piecesFrom, lead_one one] at h
    exact started (encode_one one) rfl h
  by_cases two : 0xc2 ≤ a.toNat ∧ a.toNat ≤ 0xdf
  · rw [piecesFrom_more (lead_two two.1 two.2)] at h
    obtain ⟨b, rest, rfl, hb, hb', h⟩ := exists_of_piecesFrom_some h
    exact started (encode_two rfl two ⟨hb, hb'⟩) rfl h
  by_cases three : 0xe0 ≤ a.toNat ∧ a.toNat ≤ 0xef
  · rw [piecesFrom_more (lead_three three.1 three.2)] at h
    obtain ⟨b, rest, rfl, hb, hb', h⟩ := exists_of_piecesFrom_some h
    obtain ⟨c, rest, rfl, hc, hc', h⟩ := exists_of_piecesFrom_some h
    simp only at hb hb'
    refine started (encode_three rfl three ?_ ?_ ?_ ⟨hc, hc'⟩) rfl h
    all_goals grind
  by_cases four : 0xf0 ≤ a.toNat ∧ a.toNat ≤ 0xf4
  · rw [piecesFrom_more (lead_four four.1 four.2)] at h
    obtain ⟨b, rest, rfl, hb, hb', h⟩ := exists_of_piecesFrom_some h
    obtain ⟨c, rest, rfl, hc, hc', h⟩ := exists_of_piecesFrom_some h
    obtain ⟨d, rest, rfl, hd, hd', h⟩ := exists_of_piecesFrom_some h
    simp only at hb hb'
    refine started (encode_four rfl four ?_ ?_ ?_ ⟨hc, hc'⟩ ⟨hd, hd'⟩) rfl h
    all_goals grind
  · rw [piecesFrom, lead_bad more (by omega)] at h
    obtain ⟨_, _, _, absurd, _⟩ := List.map_eq_cons_iff.mp h.symm
    cases absurd

end Utf8

theorem toNat_of_mem_utf8EncodeChar {c : Char} {b : UInt8} (h : b ∈ String.utf8EncodeChar c) :
    b.toNat = c.toNat ∨ 0x80 ≤ b.toNat ∧ 0x80 ≤ c.toNat := by
  have valid : c.toNat < 0xd800 ∨ 0xdfff < c.toNat ∧ c.toNat < 0x110000 := c.valid
  have value : c.val.toNat = c.toNat := rfl
  simp only [String.utf8EncodeChar, value] at h
  generalize c.toNat = v at *
  split_ifs at h <;> simp only [List.mem_cons, List.not_mem_nil, or_false] at h
  · left
    rw [h, Utf8.toNat_ofNat (by omega)]
  all_goals
    refine .inr ⟨?_, by omega⟩
    rcases h with rfl | rfl | rfl | rfl <;> rw [Utf8.toNat_ofNat (by omega)] <;> omega

theorem eq_ascii_iff_of_mem {c k : Char} {b : UInt8} (h : b ∈ String.utf8EncodeChar c)
    (ascii : k.toNat < 0x80) : b = UInt8.ofNat k.toNat ↔ c = k := by
  rw [← UInt8.toNat_inj, Utf8.toNat_ofNat (by omega), ← Char.toNat_inj]
  rcases toNat_of_mem_utf8EncodeChar h with same | beyond <;> omega

theorem pieces_encode (cs : List Char) :
    pieces (cs.flatMap String.utf8EncodeChar) = cs.map some := by
  induction cs with
  | nil => rfl
  | cons c cs ih =>
    rw [List.flatMap_cons, pieces, Utf8.piecesFrom_encode]
    exact congrArg (some c :: ·) ih

theorem mapM_id_map_some {α : Type} (xs : List α) : (xs.map some).mapM id = some xs := by
  induction xs with
  | nil => rfl
  | cons x xs ih => simp [ih]

@[simp] theorem fromUtf8?_utf8 (s : String) : fromUtf8? (utf8 s) = some s := by
  rw [fromUtf8?, utf8, pieces_encode, mapM_id_map_some, Option.map_some, String.ofList_toList]

theorem eq_map_some_of_mapM_id {α : Type} {xs : List (Option α)} {ys : List α}
    (h : xs.mapM id = some ys) : xs = ys.map some := by
  induction xs generalizing ys with
  | nil => cases h; rfl
  | cons x xs ih =>
    simp only [List.mapM_cons, id_eq, Option.bind_eq_bind, Option.bind_eq_some_iff,
      Option.pure_def] at h
    obtain ⟨y, rfl, zs, rest, same⟩ := h
    cases same
    rw [ih rest, List.map_cons]

theorem eq_flatMap_of_pieces {bs : Bytes} {cs : List Char} (h : pieces bs = cs.map some) :
    bs = cs.flatMap String.utf8EncodeChar := by
  induction cs generalizing bs with
  | nil =>
    cases bs with
    | nil => rfl
    | cons b bs =>
      obtain ⟨_, _, _, absurd, _⟩ := Utf8.exists_of_piecesFrom_none h
      cases absurd
  | cons c cs ih =>
    cases bs with
    | nil => cases h
    | cons b bs =>
      obtain ⟨d, rest, ds, same, whole, h⟩ := Utf8.exists_of_piecesFrom_none h
      obtain ⟨rfl, rfl⟩ := List.cons.inj same
      rw [whole, ih h, List.flatMap_cons]

theorem fromUtf8?_eq_some_iff {bs : Bytes} {s : String} :
    fromUtf8? bs = some s ↔ bs = utf8 s := by
  constructor
  · intro h
    obtain ⟨cs, read, rfl⟩ := Option.map_eq_some_iff.mp h
    rw [utf8, String.toList_ofList]
    exact eq_flatMap_of_pieces (eq_map_some_of_mapM_id read)
  · rintro rfl
    exact fromUtf8?_utf8 s

theorem length_utf8_le (s : String) : (utf8 s).length ≤ 4 * s.toList.length := by
  unfold utf8
  induction s.toList with
  | nil => exact Nat.le_refl _
  | cons c cs ih =>
    have := c.utf8Size_le_four
    rw [List.flatMap_cons, List.length_append, String.length_utf8EncodeChar, List.length_cons]
    omega

/-- A line spells a text if it does without its line feed, and then that text goes before it. -/
theorem fromUtf8?_newline (bs : Bytes) :
    fromUtf8? (bs ++ [newline]) = (fromUtf8? bs).map (· ++ "\n") := by
  have whole : pieces (bs ++ [newline]) = pieces bs ++ [some '\n'] :=
    Utf8.piecesFrom_newline none (by simp) bs []
  rw [fromUtf8?, fromUtf8?, whole, List.mapM_append]
  cases (pieces bs).mapM id with
  | none => rfl
  | some cs => exact congrArg some String.ofList_append

end TaskFlow.Text

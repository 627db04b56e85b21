import Ripple.Proofs.Text.Order

/-!
# Ripple.Proofs.Text.Bytes

Texts and raw texts.  The bytes of a character are read as that character, whatever follows
(`frontChar?_utf8EncodeChar`), and only they are (`eq_utf8EncodeChar_of_frontChar?`).  So the raw
texts that are texts are exactly the bytes of texts, and each of them is one text
(`text?_eq_some_iff`).
-/

namespace Ripple

namespace Text

theorem toList_loop_eq (bs : ByteArray) (i : Nat) (acc : List UInt8) :
    ByteArray.toList.loop bs i acc = acc.reverse ++ bs.data.toList.drop i := by
  fun_induction ByteArray.toList.loop bs i acc with
  | case1 i acc h ih =>
      have hi : i < bs.data.toList.length := by simpa using h
      rw [ih, List.drop_eq_getElem_cons hi]
      simp [ByteArray.get!, h]
  | case2 i acc h => rw [List.drop_eq_nil_of_le (by simpa using h), List.append_nil]

theorem toList_toUTF8 (s : String) : s.toUTF8.toList = bytes s := toList_loop_eq s.toUTF8 0 []

theorem continuation?_ofNat {n : Nat} (hn : n < 64) :
    continuation? (UInt8.ofNat (n + 0x80)) = some n := by
  have hbyte : (UInt8.ofNat (n + 0x80)).toNat = n + 0x80 :=
    UInt8.toNat_ofNat_of_lt' (show n + 0x80 < 256 by omega)
  have hlow : (0x80 : UInt8) ≤ UInt8.ofNat (n + 0x80) := by
    rw [UInt8.le_iff_toNat_le, hbyte]
    exact Nat.le_add_left _ _
  have hhigh : UInt8.ofNat (n + 0x80) < 0xc0 := by
    rw [UInt8.lt_iff_toNat_lt, hbyte]
    exact Nat.add_lt_add_right hn 0x80
  have hrange : (0x80 ≤ UInt8.ofNat (n + 0x80) && UInt8.ofNat (n + 0x80) < 0xc0) = true := by
    rw [Bool.and_eq_true, decide_eq_true_iff, decide_eq_true_iff]
    exact ⟨hlow, hhigh⟩
  rw [continuation?, if_pos hrange, hbyte, Nat.add_sub_cancel]

/-- The bytes of a character read back as that character, whatever follows them. -/
theorem frontChar?_utf8EncodeChar (c : Char) (rest : List UInt8) :
    frontChar? (String.utf8EncodeChar c ++ rest) =
      some (c, (String.utf8EncodeChar c).length) := by
  have hvalid : c.val.toNat < 0x110000 ∧ ¬ (0xd800 ≤ c.val.toNat ∧ c.val.toNat < 0xe000) := by
    have hvalid := c.valid
    simp only [UInt32.isValidChar, Nat.isValidChar] at hvalid
    omega
  have hchar : Char.ofNat c.val.toNat = c := Char.ofNat_toNat c
  simp only [String.utf8EncodeChar]
  generalize c.val.toNat = v at *
  have hbyte {n : Nat} (hn : n < 256) : (UInt8.ofNat n).toNat = n := UInt8.toNat_ofNat_of_lt' hn
  have hcont (n : Nat) : continuation? (UInt8.ofNat (n % 64 + 0x80)) = some (n % 64) :=
    continuation?_ofNat (Nat.mod_lt _ (by decide))
  have hfrom {least n : Nat} (hn : n = v) (hleast : least ≤ v) : charFrom? least n = some c := by
    rw [hn, charFrom?, if_pos ⟨hleast, hvalid⟩, hchar]
  -- the number of bytes is told by the range that the first byte is in
  split_ifs with hone htwo hthree
  · simp (disch := omega) only [frontChar?, List.cons_append, hbyte, if_pos, hchar,
      List.length_singleton]
  · simp only [List.cons_append, List.nil_append, frontChar?]
    rw [hbyte (by omega), if_neg (by omega), if_neg (by omega), if_pos (by omega)]
    simp only [List.getElem?_cons_zero, Option.bind_some, hcont, Option.bind_eq_bind]
    rw [hfrom (by omega) (by omega)]
    rfl
  · simp only [List.cons_append, List.nil_append, frontChar?]
    rw [hbyte (by omega), if_neg (by omega), if_neg (by omega), if_neg (by omega),
      if_pos (by omega)]
    simp only [List.getElem?_cons_zero, List.getElem?_cons_succ, Option.bind_some, hcont,
      Option.bind_eq_bind]
    rw [hfrom (by omega) (by omega)]
    rfl
  · simp only [List.cons_append, List.nil_append, frontChar?]
    rw [hbyte (by omega), if_neg (by omega), if_neg (by omega), if_neg (by omega),
      if_neg (by omega), if_pos (by omega)]
    simp only [List.getElem?_cons_zero, List.getElem?_cons_succ, Option.bind_some, hcont,
      Option.bind_eq_bind]
    rw [hfrom (by omega) (by omega)]
    rfl

theorem continuation?_eq_some {b : UInt8} {n : Nat} (h : continuation? b = some n) :
    n < 64 ∧ b = UInt8.ofNat (n + 0x80) := by
  rw [continuation?] at h
  split at h
  · next hrange =>
      obtain rfl := Option.some.inj h
      have hlow : (0x80 : UInt8).toNat = 0x80 := rfl
      have hhigh : (0xc0 : UInt8).toNat = 0xc0 := rfl
      rw [Bool.and_eq_true, decide_eq_true_iff, decide_eq_true_iff, UInt8.le_iff_toNat_le,
        UInt8.lt_iff_toNat_lt, hlow, hhigh] at hrange
      refine ⟨by omega, ?_⟩
      rw [Nat.sub_add_cancel hrange.1, UInt8.ofNat_toNat]
  · cases h

theorem charFrom?_eq_some {least n : Nat} {c : Char} (h : charFrom? least n = some c) :
    least ≤ n ∧ c.val.toNat = n := by
  rw [charFrom?] at h
  split at h
  · next hrange =>
      cases h
      have hvalid : n.isValidChar := by
        simp only [Nat.isValidChar]
        omega
      refine ⟨hrange.1, ?_⟩
      rw [Char.ofNat, dif_pos hvalid]
      rfl
  · cases h

theorem getElem?_bind_continuation? {rest : List UInt8} {i n : Nat}
    (h : rest[i]?.bind continuation? = some n) :
    n < 64 ∧ rest[i]? = some (UInt8.ofNat (n + 0x80)) := by
  obtain ⟨b, hb, hn⟩ := Option.bind_eq_some_iff.mp h
  obtain ⟨hlt, rfl⟩ := continuation?_eq_some hn
  exact ⟨hlt, hb⟩

theorem utf8EncodeChar_two {n b : Nat} {c : Char} (hn : 0xc0 ≤ n ∧ n < 0xe0) (hb : b < 64)
    (h : charFrom? 0x80 ((n - 0xc0) * 64 + b) = some c) :
    String.utf8EncodeChar c = [UInt8.ofNat n, UInt8.ofNat (b + 0x80)] := by
  obtain ⟨hleast, hv⟩ := charFrom?_eq_some h
  simp only [String.utf8EncodeChar]
  rw [if_neg (by omega), if_pos (by omega), show c.val.toNat / 64 % 32 + 0xc0 = n by omega,
    show c.val.toNat % 64 = b by omega]

theorem utf8EncodeChar_three {n b d : Nat} {c : Char} (hn : 0xe0 ≤ n ∧ n < 0xf0) (hb : b < 64)
    (hd : d < 64) (h : charFrom? 0x800 (((n - 0xe0) * 64 + b) * 64 + d) = some c) :
    String.utf8EncodeChar c =
      [UInt8.ofNat n, UInt8.ofNat (b + 0x80), UInt8.ofNat (d + 0x80)] := by
  obtain ⟨hleast, hv⟩ := charFrom?_eq_some h
  simp only [String.utf8EncodeChar]
  rw [if_neg (by omega), if_neg (by omega), if_pos (by omega),
    show c.val.toNat / 4096 % 16 + 0xe0 = n by omega, show c.val.toNat / 64 % 64 = b by omega,
    show c.val.toNat % 64 = d by omega]

theorem utf8EncodeChar_four {n b d e : Nat} {c : Char} (hn : 0xf0 ≤ n ∧ n < 0xf8) (hb : b < 64)
    (hd : d < 64) (he : e < 64)
    (h : charFrom? 0x10000 ((((n - 0xf0) * 64 + b) * 64 + d) * 64 + e) = some c) :
    String.utf8EncodeChar c = [UInt8.ofNat n, UInt8.ofNat (b + 0x80), UInt8.ofNat (d + 0x80),
      UInt8.ofNat (e + 0x80)] := by
  obtain ⟨hleast, hv⟩ := charFrom?_eq_some h
  simp only [String.utf8EncodeChar]
  rw [if_neg (by omega), if_neg (by omega), if_neg (by omega),
    show c.val.toNat / 262144 % 8 + 0xf0 = n by omega,
    show c.val.toNat / 4096 % 64 = b by omega, show c.val.toNat / 64 % 64 = d by omega,
    show c.val.toNat % 64 = e by omega]

/-- Only the bytes of a character are read as that character. -/
theorem eq_utf8EncodeChar_of_frontChar? {bs : List UInt8} {c : Char} {n : Nat}
    (h : frontChar? bs = some (c, n)) :
    n = (String.utf8EncodeChar c).length ∧ ∃ rest, bs = String.utf8EncodeChar c ++ rest := by
  cases bs with
  | nil => cases h
  | cons a rest =>
      have hfirst : a = UInt8.ofNat a.toNat := (UInt8.ofNat_toNat).symm
      simp only [frontChar?] at h
      generalize a.toNat = n at *
      subst hfirst
      -- the range of the first byte tells how many bytes were read
      split_ifs at h with hone htwo hthree hfour hfive
      · have hchar : charFrom? 0 n = some (Char.ofNat n) := if_pos (by omega)
        have hv := (charFrom?_eq_some hchar).2
        cases h
        rw [String.utf8EncodeChar, hv, if_pos (by omega)]
        exact ⟨rfl, rest, rfl⟩
      · obtain ⟨b, hb, h⟩ := Option.bind_eq_some_iff.mp h
        obtain ⟨c', hc, h⟩ := Option.bind_eq_some_iff.mp h
        cases h
        obtain ⟨hlt, hb⟩ := getElem?_bind_continuation? hb
        rw [utf8EncodeChar_two (by omega) hlt hc]
        match rest, hb with
        | _ :: tail, rfl => exact ⟨rfl, tail, rfl⟩
      · obtain ⟨b, hb, h⟩ := Option.bind_eq_some_iff.mp h
        obtain ⟨d, hd, h⟩ := Option.bind_eq_some_iff.mp h
        obtain ⟨c', hc, h⟩ := Option.bind_eq_some_iff.mp h
        cases h
        obtain ⟨hltb, hb⟩ := getElem?_bind_continuation? hb
        obtain ⟨hltd, hd⟩ := getElem?_bind_continuation? hd
        rw [utf8EncodeChar_three (by omega) hltb hltd hc]
        match rest, hb, hd with
        | _ :: _ :: tail, rfl, rfl => exact ⟨rfl, tail, rfl⟩
      · obtain ⟨b, hb, h⟩ := Option.bind_eq_some_iff.mp h
        obtain ⟨d, hd, h⟩ := Option.bind_eq_some_iff.mp h
        obtain ⟨e, he, h⟩ := Option.bind_eq_some_iff.mp h
        obtain ⟨c', hc, h⟩ := Option.bind_eq_some_iff.mp h
        cases h
        obtain ⟨hltb, hb⟩ := getElem?_bind_continuation? hb
        obtain ⟨hltd, hd⟩ := getElem?_bind_continuation? hd
        obtain ⟨hlte, he⟩ := getElem?_bind_continuation? he
        rw [utf8EncodeChar_four (by omega) hltb hltd hlte hc]
        match rest, hb, hd, he with
        | _ :: _ :: _ :: tail, rfl, rfl, rfl => exact ⟨rfl, tail, rfl⟩

end Text

namespace RawText

/-! ## pieces -/

/-- The bytes of a character are passed over. -/
theorem piecesOf_length (bs rest : List UInt8) :
    piecesOf bs.length (bs ++ rest) = piecesOf 0 rest := by
  induction bs with
  | nil => rfl
  | cons b bs ih => exact ih

theorem piecesOf_utf8EncodeChar (c : Char) (rest : List UInt8) :
    piecesOf 0 (String.utf8EncodeChar c ++ rest) = .char c :: piecesOf 0 rest := by
  have hfront := Text.frontChar?_utf8EncodeChar c rest
  cases hbs : String.utf8EncodeChar c with
  | nil => simp at hbs
  | cons b bs =>
      rw [hbs] at hfront
      rw [List.cons_append] at hfront ⊢
      simp only [piecesOf, hfront, List.length_cons, Nat.add_sub_cancel, piecesOf_length]

/-- The pieces of a text are its characters. -/
theorem pieces_ofText (s : String) : (ofText s).pieces = s.toList.map .char := by
  have hchars (cs : List Char) : piecesOf 0 (cs.flatMap String.utf8EncodeChar) = cs.map .char := by
    induction cs with
    | nil => rfl
    | cons c cs ih => rw [List.flatMap_cons, piecesOf_utf8EncodeChar, ih, List.map_cons]
  rw [pieces, ofText, Text.bytes_eq, hchars]

/-- Bytes whose pieces are characters are the bytes of these. -/
theorem eq_flatMap_of_piecesOf {bs : List UInt8} {cs : List Char}
    (h : piecesOf 0 bs = cs.map .char) : bs = cs.flatMap String.utf8EncodeChar := by
  induction cs generalizing bs with
  | nil =>
      cases bs with
      | nil => rfl
      | cons b bs =>
          rw [piecesOf] at h
          split at h <;> cases h
  | cons c cs ih =>
      cases bs with
      | nil => cases h
      | cons b bs =>
          rw [piecesOf, List.map_cons] at h
          split at h
          · next hfront =>
              obtain ⟨hc, hrest⟩ := List.cons.inj h
              cases hc
              obtain ⟨rfl, rest, hbs⟩ := Text.eq_utf8EncodeChar_of_frontChar? hfront
              have hpieces := piecesOf_utf8EncodeChar c rest
              rw [← hbs, piecesOf, hfront] at hpieces
              rw [hbs, List.flatMap_cons, ← ih ((List.cons.inj hpieces).2 ▸ hrest)]
          · cases (List.cons.inj h).1

/-! ## raw texts that are texts -/

theorem mapM_char?_eq_some {ps : List Piece} {cs : List Char} :
    ps.mapM Piece.char? = some cs ↔ ps = cs.map .char := by
  induction ps generalizing cs with
  | nil => cases cs <;> simp
  | cons p ps ih =>
      cases p with
      | char c =>
          cases cs <;>
            simp [List.mapM_cons, Piece.char?, Option.bind_eq_some_iff, ih, and_comm]
      | stray b => cases cs <;> simp [List.mapM_cons, Piece.char?]

/-- **A raw text is a text** when its bytes are those of the text. -/
theorem text?_eq_some_iff {r : RawText} {s : String} : r.text? = some s ↔ r = ofText s := by
  constructor
  · intro h
    obtain ⟨cs, hcs, rfl⟩ := Option.map_eq_some_iff.mp h
    have hbytes := eq_flatMap_of_piecesOf (mapM_char?_eq_some.mp hcs)
    rw [ofText, Text.bytes_eq, String.toList_ofList, ← hbytes]
  · rintro rfl
    rw [text?, mapM_char?_eq_some.mpr (pieces_ofText s), Option.map_some, String.ofList_toList]

@[simp] theorem text?_ofText (s : String) : (ofText s).text? = some s := text?_eq_some_iff.mpr rfl

@[simp] theorem shown_ofText (s : String) : (ofText s).shown = s := by
  have hshown : Piece.shown ∘ .char = id := rfl
  rw [shown, pieces_ofText, List.map_map, hshown, List.map_id, String.ofList_toList]

theorem ofText_injective {s t : String} (h : ofText s = ofText t) : s = t := by
  have htext := text?_ofText t
  rw [← h, text?_ofText] at htext
  exact Option.some.inj htext

@[simp] theorem quote_ofText (s : String) : (ofText s).quote = Text.quote s := by
  rw [quote, pieces_ofText, List.flatMap_map]
  rfl

end RawText

end Ripple

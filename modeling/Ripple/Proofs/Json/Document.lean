import Ripple.Proofs.Json.RoundTrip

/-!
# Ripple.Proofs.Json.Document

Documents read back, however they are laid out:

```
parse? v.compact = some v        parse? v.pretty = some v
```

The two ways to write a value differ only in the blanks between its parts.  `spell` writes with any
`Layout` of blanks, and `value?_spell` reads back what it wrote, with the rest of the text left
open.  The numbers of documents are integers (`Readable`).
-/

namespace Ripple.Json

mutual

/-- All numbers of a value are integers. -/
def Readable : Json → Prop
  | null | bool _ | string _ => True
  | number literal => ∃ n : Int, literal = toString n
  | array items => ReadableItems items
  | object members => ReadableMembers members

/-- All numbers of some values are integers. -/
def ReadableItems : List Json → Prop
  | [] => True
  | v :: vs => v.Readable ∧ ReadableItems vs

/-- All numbers of some members are integers. -/
def ReadableMembers : List (String × Json) → Prop
  | [] => True
  | (_, v) :: ms => v.Readable ∧ ReadableMembers ms

end

theorem readable_array {items : List Json} :
    (array items).Readable ↔ ∀ v ∈ items, v.Readable := by
  rw [Readable]
  induction items with
  | nil => simp [ReadableItems]
  | cons v vs ih => simp [ReadableItems, ih]

theorem readable_object {members : List (String × Json)} :
    (object members).Readable ↔ ∀ m ∈ members, m.2.Readable := by
  rw [Readable]
  induction members with
  | nil => simp [ReadableMembers]
  | cons m ms ih => simp [ReadableMembers, ih]

@[simp] theorem readable_int (n : Int) : (Json.int n).Readable := ⟨n, rfl⟩

/-! ## texts -/

theorem stringBody_flatMap (cs acc rest : List Char) :
    stringBody none acc (cs.flatMap (escapeChar .document) ++ '"' :: rest) =
      some (String.ofList (acc.reverse ++ cs), rest) := by
  induction cs generalizing acc with
  | nil => simp [stringBody, settle]
  | cons c cs ih =>
      rw [List.flatMap_cons, List.append_assoc, stringBody_escapeChar, ih]
      simp

/-- A quoted text is a quote and a body that reads back as the text. -/
theorem exists_quote_eq (s : String) : ∃ body, (quote s).toList = '"' :: body ∧
    ∀ rest, stringBody none [] (body ++ rest) = some (s, rest) := by
  refine ⟨s.toList.flatMap (escapeChar .document) ++ ['"'], by simp [quote, quoteWith], ?_⟩
  intro rest
  rw [List.append_assoc, List.singleton_append, stringBody_flatMap, List.reverse_nil,
    List.nil_append, String.ofList_toList]

/-! ## numbers -/

/-- What may follow a value: the end, a blank, or what closes or separates. -/
def Stops (rest : List Char) : Prop :=
  ∀ c ∈ rest.head?, isGap c = true ∨ c = ',' ∨ c = ']' ∨ c = '\x7d'

theorem Stops.not_isDigit {c : Char} {rest : List Char} (h : Stops (c :: rest)) :
    c.isDigit = false := by
  have hc := h c rfl
  simp only [isGap, Bool.or_eq_true, beq_iff_eq] at hc
  obtain (((rfl | rfl) | rfl) | rfl) | rfl | rfl | rfl := hc <;> rfl

theorem digits?_append {ds rest : List Char} (hne : ds ≠ []) (hds : ∀ c ∈ ds, c.isDigit = true)
    (hrest : Stops rest) : digits? (ds ++ rest) = some (ds, rest) := by
  have htake : rest.takeWhile Char.isDigit = [] ∧ rest.dropWhile Char.isDigit = rest := by
    cases rest with
    | nil => exact ⟨rfl, rfl⟩
    | cons c rest => simp [hrest.not_isDigit]
  simp [digits?, List.takeWhile_append_of_pos hds, List.dropWhile_append_of_pos hds, htake, hne]

/-- The digits of a number that is not zero do not begin with a zero. -/
theorem head_toDigits_ne {n : Nat} (hn : 0 < n) {c : Char} {cs : List Char}
    (h : Nat.toDigits 10 n = c :: cs) : c ≠ '0' := by
  induction n using Nat.strongRecOn generalizing c cs with
  | ind n ih =>
      by_cases hsmall : n < 10
      · rw [Nat.toDigits_of_lt_base hsmall] at h
        obtain ⟨rfl, -⟩ := List.cons.inj h
        have hdigit : ∀ d < 10, 0 < d → d.digitChar ≠ '0' := by decide
        exact hdigit n hsmall hn
      · rw [Nat.toDigits_of_base_le (by decide) (by omega)] at h
        cases hfront : Nat.toDigits 10 (n / 10) with
        | nil => simp at hfront
        | cons d ds =>
            rw [hfront, List.cons_append] at h
            obtain ⟨rfl, -⟩ := List.cons.inj h
            exact ih (n / 10) (by omega) (by omega) hfront

theorem wholePart?_toDigits (n : Nat) {rest : List Char} (hrest : Stops rest) :
    wholePart? (Nat.toDigits 10 n ++ rest) = some (Nat.toDigits 10 n, rest) := by
  rcases Nat.eq_zero_or_pos n with rfl | hn
  · rfl
  · have hdigits := digits?_append (Nat.toDigits_ne_nil (b := 10) (n := n))
      (fun c hc => Nat.isDigit_of_mem_toDigits (by decide) (by decide) hc) hrest
    cases hcs : Nat.toDigits 10 n with
    | nil => simp at hcs
    | cons c cs =>
        have hzero := head_toDigits_ne hn hcs
        rw [hcs] at hdigits
        rw [List.cons_append] at hdigits ⊢
        rw [wholePart?]
        · exact hdigits
        · intro rest' heq
          exact hzero (List.cons.inj heq).1

theorem Stops.fraction? {rest : List Char} (h : Stops rest) : fraction? rest = some ([], rest) := by
  rw [Json.fraction?]
  rintro rest' rfl
  exact absurd (h '.' rfl) (by decide)

theorem Stops.exponent? {rest : List Char} (h : Stops rest) : exponent? rest = some ([], rest) := by
  cases rest with
  | nil => rfl
  | cons c rest =>
      have hne : ¬ (c == 'e' || c == 'E') = true := by
        simp only [Bool.or_eq_true, beq_iff_eq]
        rintro (rfl | rfl)
        · exact absurd (h 'e' rfl) (by decide)
        · exact absurd (h 'E' rfl) (by decide)
      unfold Json.exponent?
      exact if_neg hne

/-- The digits of a number begin with a digit. -/
theorem exists_toDigits_eq (n : Nat) : ∃ c cs, Nat.toDigits 10 n = c :: cs ∧ c.isDigit = true := by
  cases h : Nat.toDigits 10 n with
  | nil => simp at h
  | cons c cs =>
      exact ⟨c, cs, rfl, Nat.isDigit_of_mem_toDigits (b := 10) (n := n) (by decide) (by decide)
        (h ▸ List.mem_cons_self)⟩

/-- An integer reads back, whatever stops it. -/
theorem number?_toString (n : Int) {rest : List Char} (hrest : Stops rest) :
    number? ((toString n).toList ++ rest) = some (toString n, rest) := by
  cases n with
  | ofNat m =>
      have hm : toString (Int.ofNat m) = String.ofList (Nat.toDigits 10 m) :=
        Nat.repr_eq_ofList_toDigits
      obtain ⟨c, cs, hcs, hc⟩ := exists_toDigits_eq m
      have hwhole := wholePart?_toDigits m hrest
      rw [hm, String.toList_ofList]
      rw [hcs] at hwhole ⊢
      rw [List.cons_append] at hwhole ⊢
      have hsign : c ≠ '-' := by
        rintro rfl
        cases hc
      simp [number?, hsign, hwhole, hrest.fraction?, hrest.exponent?]
  | negSucc m =>
      have hm : toString (Int.negSucc m) = "-" ++ String.ofList (Nat.toDigits 10 (m + 1)) :=
        congrArg ("-" ++ ·) Nat.repr_eq_ofList_toDigits
      have hwhole := wholePart?_toDigits (m + 1) hrest
      rw [hm, String.toList_append, String.toList_ofList]
      simp [number?, hwhole, hrest.fraction?, hrest.exponent?, String.ofList_cons]

/-- An integer begins with a digit or with its sign. -/
theorem exists_toString_eq (n : Int) :
    ∃ c cs, (toString n).toList = c :: cs ∧ (c.isDigit = true ∨ c = '-') := by
  cases n with
  | ofNat m =>
      obtain ⟨c, cs, hcs, hc⟩ := exists_toDigits_eq m
      have hm : toString (Int.ofNat m) = String.ofList (Nat.toDigits 10 m) :=
        Nat.repr_eq_ofList_toDigits
      exact ⟨c, cs, by rw [hm, String.toList_ofList, hcs], .inl hc⟩
  | negSucc m =>
      refine ⟨'-', (m + 1).repr.toList, ?_, .inr rfl⟩
      exact (String.toList_append (s := "-") (t := (m + 1).repr))

/-! ## layouts -/

/-- The blanks that a way of writing puts between the parts of a value. -/
structure Layout where
  /-- What stands before a part at a depth. -/
  line : Nat → List Char
  /-- What stands after a colon. -/
  colon : List Char
  /-- Parts are set apart by blanks only. -/
  line_gap : ∀ depth, ∀ c ∈ line depth, isGap c = true
  /-- A name is set apart from its value by blanks only. -/
  colon_gap : ∀ c ∈ colon, isGap c = true

/-- All on one line, without blanks. -/
def Layout.compact : Layout := ⟨fun _ => [], [], by simp, by simp⟩

/-- Each part on a line of its own. -/
def Layout.indented : Layout where
  line depth := (newline depth).toList
  colon := [' ']
  line_gap := by simp [newline, isGap]
  colon_gap := by simp [isGap]

mutual

/-- The value, written in a layout at a depth. -/
def spell (l : Layout) (depth : Nat) : Json → List Char
  | null => ['n', 'u', 'l', 'l']
  | bool b => if b then ['t', 'r', 'u', 'e'] else ['f', 'a', 'l', 's', 'e']
  | number literal => literal.toList
  | string s => (quote s).toList
  | array [] => ['[', ']']
  | array (v :: vs) => '[' :: (spellItems l (depth + 1) (v :: vs) ++ (l.line depth ++ [']']))
  | object [] => ['\x7b', '\x7d']
  | object (m :: ms) =>
    '\x7b' :: (spellMembers l (depth + 1) (m :: ms) ++ (l.line depth ++ ['\x7d']))

/-- Values with commas between them, written in a layout. -/
def spellItems (l : Layout) (depth : Nat) : List Json → List Char
  | [] => []
  | [v] => l.line depth ++ spell l depth v
  | v :: w :: rest => l.line depth ++ (spell l depth v ++ ',' :: spellItems l depth (w :: rest))

/-- Members with commas between them, written in a layout. -/
def spellMembers (l : Layout) (depth : Nat) : List (String × Json) → List Char
  | [] => []
  | [(k, v)] => l.line depth ++ ((quote k).toList ++ ':' :: (l.colon ++ spell l depth v))
  | (k, v) :: m :: rest =>
    l.line depth ++ ((quote k).toList ++
      ':' :: (l.colon ++ (spell l depth v ++ ',' :: spellMembers l depth (m :: rest))))

end

mutual

theorem toList_compact (depth : Nat) : ∀ v : Json, v.compact.toList = spell .compact depth v
  | null => rfl
  | bool b => by cases b <;> rfl
  | number _ => by rw [compact, spell]
  | string _ => by rw [compact, spell]
  | array [] => rfl
  | array (v :: vs) => by
      simp [compact, spell, toList_compactItems (depth + 1) (v :: vs), Layout.compact]
  | object [] => rfl
  | object (m :: ms) => by
      simp [compact, spell, toList_compactMembers (depth + 1) (m :: ms), Layout.compact]

theorem toList_compactItems (depth : Nat) : ∀ vs : List Json,
    (compactItems vs).toList = spellItems .compact depth vs
  | [] => rfl
  | [v] => by simp [compactItems, spellItems, toList_compact depth v, Layout.compact]
  | v :: w :: rest => by
      simp [compactItems, spellItems, toList_compact depth v,
        toList_compactItems depth (w :: rest), Layout.compact]

theorem toList_compactMembers (depth : Nat) : ∀ ms : List (String × Json),
    (compactMembers ms).toList = spellMembers .compact depth ms
  | [] => rfl
  | [(k, v)] => by simp [compactMembers, spellMembers, toList_compact depth v, Layout.compact]
  | (k, v) :: m :: rest => by
      simp [compactMembers, spellMembers, toList_compact depth v,
        toList_compactMembers depth (m :: rest), Layout.compact]

end

mutual

theorem toList_prettyAt (depth : Nat) : ∀ v : Json,
    (prettyAt depth v).toList = spell .indented depth v
  | null => by simp [prettyAt, spell]
  | bool b => by cases b <;> simp [prettyAt, spell]
  | number _ => by rw [prettyAt, spell]
  | string _ => by rw [prettyAt, spell]
  | array [] => by simp [prettyAt, spell]
  | array (v :: vs) => by
      simp [prettyAt, spell, toList_prettyItems (depth + 1) (v :: vs), Layout.indented]
  | object [] => by simp [prettyAt, spell]
  | object (m :: ms) => by
      simp [prettyAt, spell, toList_prettyMembers (depth + 1) (m :: ms), Layout.indented]

theorem toList_prettyItems (depth : Nat) : ∀ vs : List Json,
    (prettyItems depth vs).toList = spellItems .indented depth vs
  | [] => rfl
  | [v] => by simp [prettyItems, spellItems, toList_prettyAt depth v, Layout.indented]
  | v :: w :: rest => by
      simp [prettyItems, spellItems, toList_prettyAt depth v,
        toList_prettyItems depth (w :: rest), Layout.indented]

theorem toList_prettyMembers (depth : Nat) : ∀ ms : List (String × Json),
    (prettyMembers depth ms).toList = spellMembers .indented depth ms
  | [] => rfl
  | [(k, v)] => by simp [prettyMembers, spellMembers, toList_prettyAt depth v, Layout.indented]
  | (k, v) :: m :: rest => by
      simp [prettyMembers, spellMembers, toList_prettyAt depth v,
        toList_prettyMembers depth (m :: rest), Layout.indented]

end

/-! ## reading what was written -/

theorem skipGap_append {gap : List Char} (hgap : ∀ c ∈ gap, isGap c = true) (cs : List Char) :
    skipGap (gap ++ cs) = skipGap cs := List.dropWhile_append_of_pos hgap

theorem skipGap_cons {c : Char} (hc : isGap c = false) (cs : List Char) :
    skipGap (c :: cs) = c :: cs := List.dropWhile_cons_of_neg (by simp [hc])

theorem value?_append_gap {gap : List Char} (hgap : ∀ c ∈ gap, isGap c = true) (fuel : Nat)
    (cs : List Char) : value? fuel (gap ++ cs) = value? fuel cs := by
  cases fuel with
  | zero => simp [value?]
  | succ fuel => simp [value?, skipGap_append hgap]

theorem value?_quote (fuel : Nat) (s : String) (rest : List Char) :
    value? (fuel + 1) ((quote s).toList ++ rest) = some (string s, rest) := by
  obtain ⟨body, hbody, hread⟩ := exists_quote_eq s
  rw [hbody, List.cons_append, value?, skipGap_cons (by decide)]
  simp [hread]

theorem value?_toString (fuel : Nat) (n : Int) {rest : List Char} (hrest : Stops rest) :
    value? (fuel + 1) ((toString n).toList ++ rest) = some (number (toString n), rest) := by
  obtain ⟨c, cs, hcs, hc⟩ := exists_toString_eq n
  have hnumber := number?_toString n hrest
  rw [hcs, List.cons_append] at hnumber ⊢
  have hne (d : Char) (hd : d.isDigit = false) (hsign : d ≠ '-') : c ≠ d := by
    rintro rfl
    simp [hd, hsign] at hc
  have hgap : isGap c = false := by
    simp [isGap, hne ' ' rfl (by decide), hne '\n' rfl (by decide), hne '\t' rfl (by decide),
      hne '\r' rfl (by decide)]
  rw [value?, skipGap_cons hgap]
  simp [hne '"' rfl (by decide), hne '[' rfl (by decide), hne '\x7b' rfl (by decide),
    hne 't' rfl (by decide), hne 'f' rfl (by decide), hne 'n' rfl (by decide), hnumber]

theorem stops_append {gap : List Char} (hgap : ∀ c ∈ gap, isGap c = true) {rest : List Char}
    (hrest : Stops rest) : Stops (gap ++ rest) := by
  cases gap with
  | nil => exact hrest
  | cons c gap =>
      rintro _ ⟨⟩
      exact .inl (hgap c List.mem_cons_self)

theorem items?_last {fuel : Nat} {cs gap rest : List Char} {v : Json}
    (hgap : ∀ c ∈ gap, isGap c = true) (hv : value? fuel cs = some (v, gap ++ ']' :: rest)) :
    items? (fuel + 1) cs = some ([v], rest) := by
  rw [items?, hv]
  simp [skipGap_append hgap, skipGap_cons (show isGap ']' = false by decide)]

theorem items?_next {fuel : Nat} {cs rest rest' : List Char} {v : Json} {vs : List Json}
    (hv : value? fuel cs = some (v, ',' :: rest)) (hvs : items? fuel rest = some (vs, rest')) :
    items? (fuel + 1) cs = some (v :: vs, rest') := by
  rw [items?, hv]
  simp [skipGap_cons (show isGap ',' = false by decide), hvs]

theorem members?_last {fuel : Nat} {gap colon cs gap' rest : List Char} {k : String} {v : Json}
    (hgap : ∀ c ∈ gap, isGap c = true) (hcolon : ∀ c ∈ colon, isGap c = true)
    (hgap' : ∀ c ∈ gap', isGap c = true) (hv : value? fuel cs = some (v, gap' ++ '\x7d' :: rest)) :
    members? (fuel + 1) (gap ++ ((quote k).toList ++ ':' :: (colon ++ cs))) =
      some ([(k, v)], rest) := by
  obtain ⟨body, hbody, hread⟩ := exists_quote_eq k
  rw [members?, skipGap_append hgap, hbody, List.cons_append, skipGap_cons (by decide)]
  simp [hread, skipGap_cons (show isGap ':' = false by decide), value?_append_gap hcolon, hv,
    skipGap_append hgap', skipGap_cons (show isGap '\x7d' = false by decide)]

theorem members?_next {fuel : Nat} {gap colon cs rest rest' : List Char} {k : String} {v : Json}
    {ms : List (String × Json)} (hgap : ∀ c ∈ gap, isGap c = true)
    (hcolon : ∀ c ∈ colon, isGap c = true) (hv : value? fuel cs = some (v, ',' :: rest))
    (hms : members? fuel rest = some (ms, rest')) :
    members? (fuel + 1) (gap ++ ((quote k).toList ++ ':' :: (colon ++ cs))) =
      some ((k, v) :: ms, rest') := by
  obtain ⟨body, hbody, hread⟩ := exists_quote_eq k
  rw [members?, skipGap_append hgap, hbody, List.cons_append, skipGap_cons (by decide)]
  simp [hread, skipGap_cons (show isGap ':' = false by decide), value?_append_gap hcolon, hv,
    skipGap_cons (show isGap ',' = false by decide), hms]

/-- What is written never begins with a blank or with what closes an array. -/
theorem exists_spell_eq (l : Layout) (depth : Nat) {v : Json} (hv : v.Readable) :
    ∃ c cs, spell l depth v = c :: cs ∧ isGap c = false ∧ c ≠ ']' := by
  cases v with
  | null => exact ⟨'n', _, rfl, by decide, by decide⟩
  | bool b =>
      cases b
      · exact ⟨'f', _, rfl, by decide, by decide⟩
      · exact ⟨'t', _, rfl, by decide, by decide⟩
  | number literal =>
      obtain ⟨n, rfl⟩ := hv
      obtain ⟨c, cs, hcs, hc⟩ := exists_toString_eq n
      refine ⟨c, cs, by rw [spell, hcs], ?_, ?_⟩
      · simp only [isGap, Bool.or_eq_false_iff, beq_eq_false_iff_ne]
        refine ⟨⟨⟨?_, ?_⟩, ?_⟩, ?_⟩ <;> (rintro rfl; simp at hc)
      · rintro rfl
        simp at hc
  | string s =>
      obtain ⟨body, hbody, -⟩ := exists_quote_eq s
      exact ⟨'"', body, by rw [spell, hbody], by decide, by decide⟩
  | array items => cases items <;> exact ⟨'[', _, by rw [spell], by decide, by decide⟩
  | object members => cases members <;> exact ⟨'\x7b', _, by rw [spell], by decide, by decide⟩

/-- An array that is not empty is what its values read as. -/
theorem value?_spellItems {l : Layout} {depth fuel : Nat} {v : Json} {vs ws : List Json}
    {tail rest : List Char} (hv : v.Readable)
    (h : items? fuel (spellItems l depth (v :: vs) ++ tail) = some (ws, rest)) :
    value? (fuel + 1) ('[' :: (spellItems l depth (v :: vs) ++ tail)) = some (array ws, rest) := by
  obtain ⟨c, cs, hcs, hgap, hc⟩ := exists_spell_eq l depth hv
  obtain ⟨ds, hds⟩ : ∃ ds, skipGap (spellItems l depth (v :: vs) ++ tail) = c :: ds := by
    cases vs <;>
      simp [spellItems, skipGap_append (l.line_gap depth), hcs, skipGap_cons hgap]
  rw [value?, skipGap_cons (by decide)]
  simp [hds, hc, h]

/-- An object that is not empty is what its members read as. -/
theorem value?_spellMembers {l : Layout} {depth fuel : Nat} {m : String × Json}
    {ms ns : List (String × Json)} {tail rest : List Char}
    (h : members? fuel (spellMembers l depth (m :: ms) ++ tail) = some (ns, rest)) :
    value? (fuel + 1) ('\x7b' :: (spellMembers l depth (m :: ms) ++ tail)) =
      some (object ns, rest) := by
  obtain ⟨body, hbody, -⟩ := exists_quote_eq m.1
  obtain ⟨ds, hds⟩ : ∃ ds, skipGap (spellMembers l depth (m :: ms) ++ tail) = '"' :: ds := by
    cases ms <;>
      simp [spellMembers, skipGap_append (l.line_gap depth), hbody,
        skipGap_cons (show isGap '"' = false by decide)]
  rw [value?, skipGap_cons (by decide)]
  simp [hds, h]

mutual

/-- What is written in any layout reads back, whatever stops it. -/
theorem value?_spell (l : Layout) (depth : Nat) : ∀ v : Json, v.Readable →
    ∀ (fuel : Nat) (rest : List Char), 2 * (spell l depth v).length ≤ fuel + 1 → Stops rest →
      value? (fuel + 1) (spell l depth v ++ rest) = some (v, rest)
  | null => by
      intro _ fuel rest _ _
      simp [spell, value?, skipGap, isGap, word?]
  | bool b => by
      intro _ fuel rest _ _
      cases b <;> simp [spell, value?, skipGap, isGap, word?]
  | number literal => by
      rintro ⟨n, rfl⟩ fuel rest _ hrest
      rw [spell]
      exact value?_toString fuel n hrest
  | string s => by
      intro _ fuel rest _ _
      rw [spell]
      exact value?_quote fuel s rest
  | array [] => by
      intro _ fuel rest _ _
      simp [spell, value?, skipGap, isGap]
  | array (v :: vs) => by
      intro hv fuel rest hfuel _
      rw [Readable] at hv
      simp only [spell, List.length_cons, List.length_append] at hfuel
      obtain ⟨fuel, rfl⟩ : ∃ n, fuel = n + 2 := ⟨fuel - 2, by omega⟩
      have hitems := items?_spell l (depth + 1) (v :: vs) (by simp) hv fuel (l.line depth) rest
        (by omega) (l.line_gap depth)
      rw [spell, List.cons_append, List.append_assoc, List.append_assoc]
      exact value?_spellItems hv.1 hitems
  | object [] => by
      intro _ fuel rest _ _
      simp [spell, value?, skipGap, isGap]
  | object (m :: ms) => by
      intro hm fuel rest hfuel _
      rw [Readable] at hm
      simp only [spell, List.length_cons, List.length_append] at hfuel
      obtain ⟨fuel, rfl⟩ : ∃ n, fuel = n + 2 := ⟨fuel - 2, by omega⟩
      have hmembers := members?_spell l (depth + 1) (m :: ms) (by simp) hm fuel (l.line depth) rest
        (by omega) (l.line_gap depth)
      rw [spell, List.cons_append, List.append_assoc, List.append_assoc]
      exact value?_spellMembers hmembers

theorem items?_spell (l : Layout) (depth : Nat) : ∀ vs : List Json, vs ≠ [] → ReadableItems vs →
    ∀ (fuel : Nat) (gap rest : List Char), 2 * (spellItems l depth vs).length ≤ fuel + 1 →
      (∀ c ∈ gap, isGap c = true) →
      items? (fuel + 2) (spellItems l depth vs ++ (gap ++ ']' :: rest)) = some (vs, rest)
  | [] => fun hne => absurd rfl hne
  | [v] => by
      intro _ hv fuel gap rest hfuel hgap
      simp only [spellItems, List.length_append] at hfuel
      have hstop : Stops (gap ++ ']' :: rest) := stops_append hgap (by rintro _ ⟨⟩; simp)
      have hread := value?_spell l depth v hv.1 fuel _ (by omega) hstop
      rw [spellItems, List.append_assoc]
      refine items?_last hgap ?_
      rw [value?_append_gap (l.line_gap depth), hread]
  | v :: w :: vs => by
      intro _ hv fuel gap rest hfuel hgap
      simp only [spellItems, List.length_append, List.length_cons] at hfuel
      obtain ⟨fuel, rfl⟩ : ∃ n, fuel = n + 1 := ⟨fuel - 1, by omega⟩
      have hread := value?_spell l depth v hv.1 (fuel + 1)
        (',' :: (spellItems l depth (w :: vs) ++ (gap ++ ']' :: rest))) (by omega)
        (by rintro _ ⟨⟩; simp)
      have hitems := items?_spell l depth (w :: vs) (by simp) hv.2 fuel gap rest (by omega) hgap
      rw [spellItems, List.append_assoc, List.append_assoc, List.cons_append]
      refine items?_next ?_ hitems
      rw [value?_append_gap (l.line_gap depth), hread]

theorem members?_spell (l : Layout) (depth : Nat) : ∀ ms : List (String × Json), ms ≠ [] →
    ReadableMembers ms → ∀ (fuel : Nat) (gap rest : List Char),
      2 * (spellMembers l depth ms).length ≤ fuel + 1 → (∀ c ∈ gap, isGap c = true) →
      members? (fuel + 2) (spellMembers l depth ms ++ (gap ++ '\x7d' :: rest)) = some (ms, rest)
  | [] => fun hne => absurd rfl hne
  | [(k, v)] => by
      intro _ hv fuel gap rest hfuel hgap
      simp only [spellMembers, List.length_append, List.length_cons] at hfuel
      have hstop : Stops (gap ++ '\x7d' :: rest) := stops_append hgap (by rintro _ ⟨⟩; simp)
      have hread := value?_spell l depth v hv.1 fuel _ (by omega) hstop
      rw [spellMembers, List.append_assoc, List.append_assoc, List.cons_append, List.append_assoc]
      exact members?_last (l.line_gap depth) l.colon_gap hgap hread
  | (k, v) :: m :: ms => by
      intro _ hv fuel gap rest hfuel hgap
      simp only [spellMembers, List.length_append, List.length_cons] at hfuel
      obtain ⟨fuel, rfl⟩ : ∃ n, fuel = n + 1 := ⟨fuel - 1, by omega⟩
      have hread := value?_spell l depth v hv.1 (fuel + 1)
        (',' :: (spellMembers l depth (m :: ms) ++ (gap ++ '\x7d' :: rest))) (by omega)
        (by rintro _ ⟨⟩; simp)
      have hmembers := members?_spell l depth (m :: ms) (by simp) hv.2 fuel gap rest (by omega) hgap
      rw [spellMembers, List.append_assoc, List.append_assoc, List.cons_append, List.append_assoc,
        List.append_assoc, List.cons_append]
      exact members?_next (l.line_gap depth) l.colon_gap hread hmembers

end

/-- A text that is a value in some layout, with blanks at its end, is that value. -/
theorem parse?_of_toList {s : String} {l : Layout} {depth : Nat} {v : Json} (hv : v.Readable)
    (gap : List Char) (hgap : ∀ c ∈ gap, isGap c = true) (hs : s.toList = spell l depth v ++ gap) :
    parse? s = some v := by
  have hread := value?_spell l depth v hv (2 * s.toList.length + 1) gap
    (by rw [hs, List.length_append]; omega)
    (by simpa using stops_append hgap (show Stops [] by simp [Stops]))
  have hempty : skipGap gap = [] := by
    rw [← List.append_nil gap, skipGap_append hgap]
    rfl
  rw [← hs] at hread
  simp [parse?, hread, hempty]

theorem parse?_compact {v : Json} (hv : v.Readable) : parse? v.compact = some v :=
  parse?_of_toList hv [] (by simp) (by rw [toList_compact 0, List.append_nil])

theorem parse?_pretty {v : Json} (hv : v.Readable) : parse? v.pretty = some v :=
  parse?_of_toList hv [] (by simp) (by rw [pretty, toList_prettyAt, List.append_nil])

theorem parse?_pretty_line {v : Json} (hv : v.Readable) :
    parse? (v.pretty ++ "\n") = some v :=
  parse?_of_toList hv ['\n'] (by simp [isGap]) (by
    rw [String.toList_append, pretty, toList_prettyAt]
    rfl)

/-! ## lists of texts -/

theorem texts?_array_string (items : List String) :
    texts? (.array (items.map .string)) = some items := by
  rw [texts?, List.mapM_map]
  exact List.mapM_pure (m := Option) (f := id) |>.trans (by rw [List.map_id]; rfl)

/-- **Lists of texts read back**: the JSON array of some texts holds just these texts. -/
theorem texts?_parse?_compact (items : List String) :
    (parse? (Json.array (items.map .string)).compact).bind texts? = some items := by
  have hreadable : (Json.array (items.map .string)).Readable :=
    readable_array.mpr (by simp [Readable])
  rw [parse?_compact hreadable]
  exact texts?_array_string items

end Ripple.Json

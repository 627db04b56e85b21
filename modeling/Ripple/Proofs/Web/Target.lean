import Ripple.Proofs.Text.Bytes
import Ripple.Proofs.Text.Search
import Ripple.Web.Target

/-!
# Ripple.Proofs.Web.Target

Any texts can be put into a target.  With every byte of a text escaped, a target is a path and pairs
of a plain name and an escaped text, and reading it gives back the path and the pairs as raw texts
(`path_ofString_targetOf`, `pairs_ofString_targetOf`).
-/

namespace Ripple.Web

/-! ## escapes -/

/-- A byte as an escape. -/
def escapeByte (b : UInt8) : List Char := '%' :: Text.hex 2 b.toNat

/-- A text with all its bytes as escapes. -/
def escape (s : String) : String := String.ofList ((Text.bytes s).flatMap escapeByte)

theorem unescapeBytes?_escapeByte (b : UInt8) (rest : List Char) :
    unescapeBytes? (escapeByte b ++ rest) = (unescapeBytes? rest).map (b :: ·) := by
  have hb : b.toNat < 256 := b.toNat_lt
  have hvalue : 16 * (b.toNat / 16 % 16) + b.toNat % 16 = b.toNat := by omega
  have hdigit (n : Nat) : Text.hexValue? (Text.hexDigit (n % 16)) = some (n % 16) :=
    Text.hexValue?_hexDigit _ (Nat.mod_lt _ (by decide))
  simp only [escapeByte, Text.hex, List.nil_append, List.cons_append, unescapeBytes?, hdigit,
    hvalue, UInt8.ofNat_toNat, Option.bind_eq_bind, Option.bind_some]
  cases unescapeBytes? rest <;> rfl

theorem unescapeBytes?_escape (bs : List UInt8) :
    unescapeBytes? (bs.flatMap escapeByte) = some bs := by
  induction bs with
  | nil => rfl
  | cons b bs ih => rw [List.flatMap_cons, unescapeBytes?_escapeByte, ih, Option.map_some]

/-- An escape holds a percent sign and digits, and nothing else. -/
theorem not_mem_escape {c : Char} (hc : c ≠ '%') (hdigit : ∀ n < 16, Text.hexDigit n ≠ c)
    (s : String) : c ∉ (escape s).toList := by
  have hmod (n : Nat) : c ≠ Text.hexDigit (n % 16) :=
    (hdigit _ (Nat.mod_lt _ (by decide))).symm
  simp [escape, escapeByte, Text.hex, hc, hmod]

/-- Without plus signs, the text and its form in a path are the same. -/
theorem unescapeText?_of_not_mem {s : String} (h : '+' ∉ s.toList) :
    unescapeText? s = unescape? s.toList := by
  have hmap : s.toList.map (fun c => if c = '+' then ' ' else c) = s.toList := by
    refine (List.map_congr_left fun c hc => if_neg ?_).trans (List.map_id _)
    rintro rfl
    exact h hc
  rw [unescapeText?, hmap]

theorem unescapeText?_escape (s : String) : unescapeText? (escape s) = some (.ofText s) := by
  rw [unescapeText?_of_not_mem (not_mem_escape (by decide) (by decide) s), unescape?, escape,
    String.toList_ofList, unescapeBytes?_escape]
  rfl

/-! ## plain texts -/

/-- A text of letters, digits and slashes stands for itself. -/
def Plain (s : String) : Prop := s.toList.all (fun c => c.isAlphanum || c == '/') = true

instance (s : String) : Decidable (Plain s) := inferInstanceAs (Decidable (_ = true))

theorem Plain.not_mem {s : String} (h : Plain s) {c : Char} (hc : c.isAlphanum = false)
    (hslash : c ≠ '/') : c ∉ s.toList := by
  intro hmem
  have hplain := List.all_eq_true.mp h c hmem
  simp [hc, hslash] at hplain

theorem unescapeBytes?_of_not_mem {cs : List Char} (h : '%' ∉ cs) :
    unescapeBytes? cs = some (cs.flatMap String.utf8EncodeChar) := by
  induction cs with
  | nil => rfl
  | cons c cs ih =>
      obtain ⟨hc, hcs⟩ := not_or.mp (fun hmem => h (List.mem_cons.mpr hmem))
      have hchar : c.toString.toUTF8.toList = String.utf8EncodeChar c := by
        rw [Text.toList_toUTF8, Text.bytes_eq]
        simp
      rw [unescapeBytes?, hchar, ih hcs]
      · rfl
      · rintro a b rest rfl
        exact absurd rfl hc
      · rintro rfl
        exact absurd rfl hc

theorem Plain.unescape? {s : String} (h : Plain s) : unescape? s.toList = some (.ofText s) := by
  rw [Web.unescape?, unescapeBytes?_of_not_mem (h.not_mem (by decide) (by decide)), Option.map_some,
    ← Text.bytes_eq]
  rfl

theorem Plain.unescapeText? {s : String} (h : Plain s) : unescapeText? s = some (.ofText s) := by
  rw [unescapeText?_of_not_mem (h.not_mem (by decide) (by decide)), h.unescape?]

/-! ## targets -/

/-- A pair as it is written in a target. -/
def pairText (pair : String × String) : String := pair.1 ++ "=" ++ escape pair.2

/-- A pair as it is read. -/
def rawPair (pair : String × String) : RawText × RawText := (.ofText pair.1, .ofText pair.2)

theorem lookup_map_rawPair (pairs : List (String × String)) (name : String) :
    (pairs.map rawPair).lookup (.ofText name) = (pairs.lookup name).map .ofText := by
  induction pairs with
  | nil => rfl
  | cons pair pairs ih =>
      rw [List.map_cons, List.lookup_cons, List.lookup_cons]
      by_cases hname : name = pair.1
      · simp [hname, rawPair]
      · have hraw : RawText.ofText name ≠ RawText.ofText pair.1 :=
          fun h => hname (RawText.ofText_injective h)
        rw [beq_eq_false_iff_ne.mpr hname, rawPair, beq_eq_false_iff_ne.mpr hraw]
        exact ih

/-- A target with a path and named texts. -/
def targetOf (path : String) (pairs : List (String × String)) : String :=
  path ++ "?" ++ Text.join "&" (pairs.map pairText)

namespace Target

theorem pair?_pairText {pair : String × String} (h : Plain pair.1) :
    pair? (pairText pair) = some (rawPair pair) := by
  obtain ⟨name, text⟩ := pair
  have hname : Text.upTo '=' (pairText (name, text)) = name :=
    Text.upTo_append (h.not_mem (by decide) (by decide)) (escape text)
  have hempty : (pairText (name, text)).isEmpty = false := by
    simp [pairText]
  have hsemicolon : ';' ∉ (pairText (name, text)).toList := by
    simp [pairText, h.not_mem (c := ';') (by decide) (by decide),
      not_mem_escape (c := ';') (by decide) (by decide) text]
  have hrest : String.ofList ((pairText (name, text)).toList.drop (name.length + 1)) =
      escape text := by
    have hdrop := Text.drop_toList_append (name ++ "=") (escape text)
    rw [String.length_append] at hdrop
    exact (congrArg String.ofList hdrop).trans String.ofList_toList
  simp only [pair?, hname, hrest, hempty, List.contains_eq_mem, hsemicolon, h.unescapeText?,
    unescapeText?_escape]
  rfl

/-- The path of a target is read back. -/
theorem path_ofString_targetOf {path : String} (h : Plain path)
    (hroot : Text.hasPrefix path "/" = true) (pairs : List (String × String)) :
    (ofString (targetOf path pairs)).path = .ofText path := by
  have hfront : Text.upTo '?' (targetOf path pairs) = path :=
    Text.upTo_append (h.not_mem (by decide) (by decide)) _
  have horigin : splitOrigin path = ("", path) := by
    obtain ⟨rest, hrest⟩ := Text.hasPrefix_iff.mp hroot
    have hlist : path.toList = '/' :: rest := hrest.symm
    simp [splitOrigin, scheme?, hlist]
  simp [ofString, hfront, horigin, h.unescape?]

/-- The named texts of a target are read back. -/
theorem pairs_ofString_targetOf {path : String} (h : Plain path) {pairs : List (String × String)}
    (hne : pairs ≠ []) (hpairs : ∀ p ∈ pairs, Plain p.1) :
    (ofString (targetOf path pairs)).pairs = pairs.map rawPair := by
  have hfront : Text.upTo '?' (targetOf path pairs) = path :=
    Text.upTo_append (h.not_mem (by decide) (by decide)) _
  have hrest : (ofString (targetOf path pairs)).rest =
      "?" ++ Text.join "&" (pairs.map pairText) := by
    have hdrop := Text.drop_toList_append path ("?" ++ Text.join "&" (pairs.map pairText))
    rw [← String.append_assoc] at hdrop
    rw [← String.ofList_toList (s := "?" ++ _), ← hdrop]
    simp only [ofString, hfront]
    rfl
  have hamp : ∀ w ∈ pairs.map pairText, '&' ∉ w.toList := by
    rintro _ hw
    obtain ⟨pair, hpair, rfl⟩ := List.mem_map.mp hw
    simp [pairText, (hpairs pair hpair).not_mem (c := '&') (by decide) (by decide),
      not_mem_escape (c := '&') (by decide) (by decide) pair.2]
  have hjoin : String.ofList (("?" ++ Text.join "&" (pairs.map pairText)).toList.drop 1) =
      Text.join "&" (pairs.map pairText) := by simp
  have hsplit : Text.splitOn '&' (Text.join "&" (pairs.map pairText)) = pairs.map pairText :=
    Text.splitOn_join (by simpa using hne) hamp
  have hread : ∀ p ∈ pairs, (pair? ∘ pairText) p = some (rawPair p) :=
    fun p hp => pair?_pairText (hpairs p hp)
  rw [Target.pairs, hrest, hjoin, hsplit, List.filterMap_map, List.filterMap_congr hread,
    List.filterMap_eq_map']

end Target

end Ripple.Web

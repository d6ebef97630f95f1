import MarkupQuery.Proofs.Markup.PieceReading
import MarkupQuery.Proofs.Text.Taking

/-!
# MarkupQuery.Proofs.Markup.RawText — where raw text ends

The contents of a raw text element end at the first `</name`, in any case, and there has to
stand a closing tag of that name (`RawEnds`). The end is looked for by one test and read by
another, which takes the longest name; `rawElement_eq_some_iff` says that both agree.

A `<` stands at the front of a closing tag and nowhere else in it, so a `</name` that starts in
the raw text ends there as well, and raw text is what stands in front of a closing tag and holds
none (`rawEnds_iff`).
-/

namespace MarkupQuery.Markup

open Reader

/-! ## Letters in any case -/

theorem isAlpha_iff {c : Char} :
    c.isAlpha = true ↔ (65 ≤ c.toNat ∧ c.toNat ≤ 90) ∨ (97 ≤ c.toNat ∧ c.toNat ≤ 122) := by
  have hcapital : c.isUpper = true ↔ 65 ≤ c.toNat ∧ c.toNat ≤ 90 := by
    show decide (c.val ≥ 'A'.val ∧ c.val ≤ 'Z'.val) = true ↔ _
    simp [UInt32.le_iff_toNat_le]
  have hsmall : c.isLower = true ↔ 97 ≤ c.toNat ∧ c.toNat ≤ 122 := by
    show (decide (c.val ≥ 'a'.val) && decide (c.val ≤ 'z'.val)) = true ↔ _
    simp [UInt32.le_iff_toNat_le]
  show (c.isUpper || c.isLower) = true ↔ _
  rw [Bool.or_eq_true, hcapital, hsmall]

/-- Lower case moves the capital letters and nothing else. -/
theorem toNat_toLower (c : Char) :
    c.toLower.toNat = if 65 ≤ c.toNat ∧ c.toNat ≤ 90 then c.toNat + 32 else c.toNat := by
  have hcapital : (c.val ≥ 'A'.val ∧ c.val ≤ 'Z'.val) ↔ 65 ≤ c.toNat ∧ c.toNat ≤ 90 := by
    simp [UInt32.le_iff_toNat_le]
  unfold Char.toLower
  split
  · rename_i h
    rw [if_pos (hcapital.1 h)]
    have hgap : ('a'.val - 'A'.val).toNat = 32 := rfl
    have hrange := hcapital.1 h
    show (c.val + ('a'.val - 'A'.val)).toNat = c.toNat + 32
    rw [UInt32.toNat_add, hgap]
    show (c.toNat + 32) % 2 ^ 32 = c.toNat + 32
    omega
  · rename_i h
    rw [if_neg fun hrange => h (hcapital.2 hrange)]

/-- Characters that differ in case only are letters. -/
theorem eq_or_isAlpha_of_toLower_eq {c d : Char} (h : c.toLower = d.toLower) :
    c = d ∨ (c.isAlpha = true ∧ d.isAlpha = true) := by
  have hnat := congrArg Char.toNat h
  rw [toNat_toLower, toNat_toLower] at hnat
  rw [isAlpha_iff, isAlpha_iff]
  by_cases heq : c.toNat = d.toNat
  · exact .inl (Char.toNat_inj.1 heq)
  · right
    split at hnat <;> split at hnat <;> omega

/-! ## Names in any case -/

/-- A letter may stand in a name. -/
theorem isNameChar_of_isAlpha {c : Char} (h : c.isAlpha = true) : isNameChar c = true := by
  have hascii : c.toNat < 0x80 := by
    rcases isAlpha_iff.1 h with h | h <;> omega
  simp [isNameChar, Text.isAlphanumeric_of_ascii hascii, Char.isAlphanum, h]

/-- A name holds characters of names only. -/
theorem isNameChar_of_mem {name : String} (hname : IsName name) {c : Char}
    (hc : c ∈ name.toList) : isNameChar c = true := by
  obtain ⟨d, ds, hds, halpha, hrest⟩ := hname
  rw [hds] at hc
  rcases List.mem_cons.1 hc with rfl | hmem
  · exact isNameChar_of_isAlpha halpha
  · exact hrest c hmem

/-- A name in another case is a name. -/
theorem isName_of_sameName {a b : String} (ha : IsName a) (h : sameName b a = true) :
    IsName b := by
  obtain ⟨c, cs, hcs, halpha, hrest⟩ := ha
  rw [sameName, beq_iff_eq, foldCase, foldCase, hcs] at h
  obtain ⟨d, ds, hds, hd, hfold⟩ := List.map_eq_cons_iff.1 h
  refine ⟨d, ds, hds, ?_, ?_⟩
  · rcases eq_or_isAlpha_of_toLower_eq hd with rfl | hletters
    · exact halpha
    · exact hletters.1
  · intro e he
    -- its partner is at the same place of the other name
    have hmem : e.toLower ∈ cs.map Char.toLower := hfold ▸ List.mem_map_of_mem he
    obtain ⟨e', he', hlower⟩ := List.mem_map.1 hmem
    rcases eq_or_isAlpha_of_toLower_eq hlower with rfl | hletters
    · exact hrest _ he'
    · exact isNameChar_of_isAlpha hletters.2

/-- Names that differ in case only are equally long. -/
theorem length_eq_of_sameName {a b : String} (h : sameName a b = true) :
    a.toList.length = b.toList.length := by
  rw [sameName, beq_iff_eq] at h
  simpa [foldCase] using congrArg List.length h

/-! ## The first end tag -/

/-- The test for an end tag finds the name in any case, whatever stands behind it. -/
theorem startsEndTag_iff {name : String} {cs : List Char} :
    startsEndTag name cs = true ↔ ∃ written after, cs = '<' :: '/' :: (written ++ after) ∧
      sameName (String.ofList written) name = true := by
  constructor
  · intro h
    unfold startsEndTag at h
    split at h
    · rename_i cs
      refine ⟨cs.take name.length, cs.drop name.length, by rw [List.take_append_drop], ?_⟩
      simpa [sameName, foldCase] using h
    · simp at h
  · rintro ⟨written, after, rfl, hsame⟩
    have hlength := length_eq_of_sameName hsame
    rw [String.toList_ofList, String.length_toList] at hlength
    rw [startsEndTag, ← hlength, List.take_left]
    simpa [sameName, foldCase] using hsame

/-- The raw text of an element of this name ends: behind `raw` stands the first `</name` of the
text, in any case, and then blanks and a `>` in front of `rest`. -/
structure RawEnds (name : String) (cs raw rest : List Char) : Prop where
  closes : ∃ written blanks, sameName (String.ofList written) name = true ∧
    (∀ c ∈ blanks, isBlank c = true) ∧
    cs = raw ++ '<' :: '/' :: (written ++ (blanks ++ '>' :: rest))
  first : ∀ before written after, cs = before ++ '<' :: '/' :: (written ++ after) →
    sameName (String.ofList written) name = true → raw.length ≤ before.length

/-- The text is a closing tag of this name, in any case, with blanks allowed before its `>`. -/
def IsClosingTag (name : String) (cs : List Char) : Prop :=
  ∃ written blanks, sameName (String.ofList written) name = true ∧
    (∀ c ∈ blanks, isBlank c = true) ∧ cs = '<' :: '/' :: (written ++ (blanks ++ ['>']))

/-- A name in another case holds no `<` either. -/
theorem not_mem_of_sameName {name : String} (hname : IsName name) {written : List Char}
    (hsame : sameName (String.ofList written) name = true) : '<' ∉ written := by
  intro hmem
  have hchar := isNameChar_of_mem (isName_of_sameName hname hsame) (by rwa [String.toList_ofList])
  exact absurd hchar (by decide)

/-- A `<` stands at the front of a closing tag and nowhere else in it. -/
theorem IsClosingTag.eq_cons {name : String} (hname : IsName name) {closing : List Char}
    (h : IsClosingTag name closing) : ∃ body, closing = '<' :: body ∧ '<' ∉ body := by
  obtain ⟨written, blanks, hsame, hblanks, rfl⟩ := h
  have hblank : '<' ∉ blanks := fun hmem => absurd (hblanks _ hmem) (by decide)
  exact ⟨_, rfl, by simp [not_mem_of_sameName hname hsame, hblank]⟩

theorem isClosingTag_written (name : String) : IsClosingTag name (writtenClosing name) :=
  ⟨name.toList, [], by simp [sameName], by simp, by simp [writtenClosing]⟩

/-- Raw text does not hold the end tag that it ends at. -/
theorem RawEnds.not_holdsEndTag {name : String} {cs raw rest : List Char}
    (h : RawEnds name cs raw rest) : ¬ HoldsEndTag name raw := by
  rintro ⟨before, written, after, rfl, hsame⟩
  obtain ⟨_, blanks, -, -, hcs⟩ := h.closes
  rw [List.append_assoc, List.cons_append, List.cons_append, List.append_assoc] at hcs
  have hle := h.first before written _ hcs hsame
  simp only [List.length_append, List.length_cons] at hle
  omega

/-- Raw text is what stands in front of a closing tag and holds no `</name`. -/
theorem rawEnds_iff {name : String} (hname : IsName name) {cs raw rest : List Char} :
    RawEnds name cs raw rest ↔ ¬ HoldsEndTag name raw ∧
      ∃ closing, IsClosingTag name closing ∧ cs = raw ++ (closing ++ rest) := by
  constructor
  · intro hends
    obtain ⟨written, blanks, hsame, hblanks, hcs⟩ := hends.closes
    exact ⟨hends.not_holdsEndTag, _, ⟨written, blanks, hsame, hblanks, rfl⟩, by simpa using hcs⟩
  · rintro ⟨hraw, closing, ⟨written, blanks, hsame, hblanks, rfl⟩, rfl⟩
    refine ⟨⟨written, blanks, hsame, hblanks, by simp⟩, ?_⟩
    intro before written' after hbefore hsame'
    by_contra hlt
    -- an earlier `</name` ends in front of the closing tag, since it holds no other `<`
    have hbody : '<' ∉ '/' :: written' := by
      simpa using not_mem_of_sameName hname hsame'
    obtain ⟨more, hmore⟩ := eq_append_of_lt hbefore.symm hbody (by omega)
    exact hraw ⟨before, written', more, hmore, hsame'⟩

/-- The end tag that the search stops at is the first one. -/
theorem upTo_startsEndTag_iff {name : String} {cs raw tail : List Char} :
    upTo (startsEndTag name) cs = some (raw, tail) ↔
      cs = raw ++ tail ∧ startsEndTag name tail = true ∧
        ∀ before written after, cs = before ++ '<' :: '/' :: (written ++ after) →
          sameName (String.ofList written) name = true → raw.length ≤ before.length := by
  rw [upTo_eq_some_iff]
  refine and_congr_right fun hcs => and_congr_right fun _ => ?_
  constructor
  · intro hpass before written after hbefore hsame
    by_contra hless
    -- an end tag in front of the place where the search stopped
    obtain ⟨v, hraw⟩ : before <+: raw := by
      apply List.prefix_of_prefix_length_le ⟨_, hbefore.symm⟩ ⟨tail, hcs.symm⟩
      omega
    have hne : v ≠ [] := by
      rintro rfl
      rw [List.append_nil] at hraw
      exact hless (hraw ▸ Nat.le_refl _)
    have hplace : v ++ tail = '<' :: '/' :: (written ++ after) := by
      rw [hcs, ← hraw, List.append_assoc] at hbefore
      exact List.append_cancel_left hbefore
    have hfound : startsEndTag name (v ++ tail) = true :=
      startsEndTag_iff.2 ⟨written, after, hplace, hsame⟩
    rw [hpass before v hraw.symm hne] at hfound
    simp at hfound
  · intro hfirst u v huv hne
    rw [Bool.eq_false_iff]
    intro hfound
    obtain ⟨written, after, hplace, hsame⟩ := startsEndTag_iff.1 hfound
    have hle := hfirst u written after (by rw [hcs, huv, List.append_assoc, hplace]) hsame
    have hpos := List.length_pos_iff.2 hne
    rw [huv, List.length_append] at hle
    omega

/-- The rest of a raw text element is read exactly where its raw text ends. -/
theorem rawElement_eq_some_iff {tag : OpeningTag} (hname : IsName tag.name)
    {cs rest : List Char} {piece : Token} :
    rawElement tag cs = some (piece, rest) ↔ ∃ raw, RawEnds tag.name cs raw rest ∧
      piece = .whole ⟨tag.name, tag.attributes, rawContents raw⟩ := by
  constructor
  · intro h
    unfold rawElement at h
    split at h
    · simp at h
    · rename_i raw tail hup
      obtain ⟨hcs, -, hfirst⟩ := upTo_startsEndTag_iff.1 hup
      split at h
      · simp at h
      · rename_i name rest' hclose
        obtain ⟨-, blanks, hblanks, htail⟩ := closingTag_eq_some_iff.1 hclose
        split at h
        · rename_i hsame
          simp only [Option.some.injEq, Prod.mk.injEq] at h
          obtain ⟨rfl, rfl⟩ := h
          have hsame' : sameName (String.ofList name.toList) tag.name = true := by
            rwa [String.ofList_toList]
          exact ⟨raw, ⟨⟨name.toList, blanks, hsame', hblanks, by rw [hcs, htail]⟩, hfirst⟩, rfl⟩
        · simp at h
  · rintro ⟨raw, hends, rfl⟩
    obtain ⟨written, blanks, hsame, hblanks, hcs⟩ := hends.closes
    have hup : upTo (startsEndTag tag.name) cs =
        some (raw, '<' :: '/' :: (written ++ (blanks ++ '>' :: rest))) :=
      upTo_startsEndTag_iff.2 ⟨hcs, startsEndTag_iff.2 ⟨_, _, rfl, hsame⟩, hends.first⟩
    have hclose : closingTag ('<' :: '/' :: (written ++ (blanks ++ '>' :: rest))) =
        some (String.ofList written, rest) :=
      closingTag_eq_some_iff.2
        ⟨isName_of_sameName hname hsame, blanks, hblanks, by rw [String.toList_ofList]⟩
    simp only [rawElement, hup, hclose, hsame, if_true]

/-- Raw text that holds no `</name` is read up to the closing tag behind it. -/
theorem rawElement_append (tag : OpeningTag) (hname : IsName tag.name)
    {content closing : List Char} (hclosing : IsClosingTag tag.name closing)
    (hcontent : ¬ HoldsEndTag tag.name content) (rest : List Char) :
    rawElement tag (content ++ (closing ++ rest)) =
      some (.whole ⟨tag.name, tag.attributes, rawContents content⟩, rest) := by
  have hends : RawEnds tag.name (content ++ (closing ++ rest)) content rest :=
    (rawEnds_iff hname).2 ⟨hcontent, closing, hclosing, rfl⟩
  exact (rawElement_eq_some_iff hname).2 ⟨content, hends, rfl⟩

/-- The rest of a raw text element is not read where its raw text does not end. -/
theorem rawElement_eq_none_iff {tag : OpeningTag} (hname : IsName tag.name) {cs : List Char} :
    rawElement tag cs = none ↔ ∀ raw rest, ¬ RawEnds tag.name cs raw rest := by
  constructor
  · intro hnone raw rest hends
    have hread := (rawElement_eq_some_iff hname).2 ⟨raw, hends, rfl⟩
    rw [hnone] at hread
    simp at hread
  · intro hno
    cases hread : rawElement tag cs with
    | none => rfl
    | some answer =>
      obtain ⟨raw, hends, -⟩ := (rawElement_eq_some_iff hname).1 hread
      exact absurd hends (hno raw answer.2)

end MarkupQuery.Markup

import Mathlib.Data.List.Infix
import MarkupQuery.Proofs.Markup.Shape

/-!
# MarkupQuery.Proofs.Markup.RawElement — raw text elements are read as they are written

Behind the opening tag of a raw text element stands its content and then a closing tag of its
name, in any case. The content is kept as it stands if nowhere in it stands `</name`, in any
case (`elementStart_rawText`); whatever else looks like markup in it has no effect. Content
that holds a `</name` which is not completed to a closing tag, as in `</scripts`, is not passed
over: the search for the end stops there, finds no closing tag, and no element is read.

This holds behind every text that is read as an opening tag, so behind what is written as one in
any style (`elementStart_written_rawText`).
-/

namespace MarkupQuery.Markup

open Reader

/-! ## Closing tags in the content -/

/-- Somewhere in the text stands a closing tag of this name. -/
def HoldsClosingTag (name : String) (cs : List Char) : Prop :=
  ∃ closing, IsClosingTag name closing ∧ closing <:+: cs

/-- To hold `</name` is to have a place where the search for the end of raw text stops. -/
theorem holdsEndTag_iff {name : String} {raw : List Char} :
    HoldsEndTag name raw ↔ ∃ s ∈ raw.tails, startsEndTag name s = true := by
  simp only [List.mem_tails, startsEndTag_iff]
  constructor
  · rintro ⟨before, written, after, rfl, hsame⟩
    exact ⟨_, List.suffix_append before _, written, after, rfl, hsame⟩
  · rintro ⟨s, ⟨before, rfl⟩, written, after, rfl, hsame⟩
    exact ⟨before, written, after, rfl, hsame⟩

instance (name : String) (raw : List Char) : Decidable (HoldsEndTag name raw) :=
  decidable_of_iff _ holdsEndTag_iff.symm

/-! ## Where the content ends -/

/-- Content with a `</name` in it, and no closing tag, does not end. -/
theorem not_rawEnds_of_holdsEndTag {name : String} (hname : IsName name)
    {content closing : List Char} (hclosing : IsClosingTag name closing)
    (hholds : HoldsEndTag name content) (hcontent : ¬ HoldsClosingTag name content)
    (rest raw behind : List Char) : ¬ RawEnds name (content ++ (closing ++ rest)) raw behind := by
  intro hends
  -- it would have to end at the `</name`, or before
  have hlt : raw.length < content.length := by
    obtain ⟨before, written, after, rfl, hsame⟩ := hholds
    have hle := hends.first before written (after ++ (closing ++ rest)) (by simp) hsame
    simp only [List.length_append, List.length_cons]
    omega
  obtain ⟨-, closing', hclosing', hcs⟩ := (rawEnds_iff hname).1 hends
  obtain ⟨body, rfl, -⟩ := hclosing.eq_cons hname
  obtain ⟨body', rfl, hbody⟩ := hclosing'.eq_cons hname
  obtain ⟨more, hmore⟩ := eq_append_of_lt hcs.symm hbody hlt
  exact hcontent ⟨_, hclosing', raw, more, by simp [hmore]⟩

/-- In front of a closing tag, content without a `</name` is kept as it is. With one, and no
closing tag in it, nothing is read. -/
theorem rawElement_content {tag : OpeningTag} (hname : IsName tag.name)
    {content closing : List Char} (hclosing : IsClosingTag tag.name closing) (rest : List Char) :
    (¬ HoldsEndTag tag.name content →
      rawElement tag (content ++ (closing ++ rest)) =
        some (.whole ⟨tag.name, tag.attributes, rawContents content⟩, rest)) ∧
    (HoldsEndTag tag.name content → ¬ HoldsClosingTag tag.name content →
      rawElement tag (content ++ (closing ++ rest)) = none) := by
  constructor
  · intro hcontent
    exact rawElement_append tag hname hclosing hcontent rest
  · intro hholds hcontent
    exact (rawElement_eq_none_iff hname).2
      (not_rawEnds_of_holdsEndTag hname hclosing hholds hcontent rest)

/-! ## The element -/

/-- Behind the opening tag of a raw text element its rest is read. -/
theorem elementStart_of_openingTag {cs behind : List Char} {tag : OpeningTag}
    (htag : openingTag cs = some (tag, behind)) (hkind : isRawText tag.name = true)
    (hopen : tag.selfClosing = false) : elementStart cs = rawElement tag behind := by
  simp [elementStart, htag, hopen, isVoid_of_isRawText hkind, hkind]

/-- Behind the text of a well-formed tag, in any style, the same holds, and the element has the
attributes that the tag was written from. -/
theorem elementStart_written_rawText {t : WrittenTag} (ht : t.WellFormed)
    (hkind : isRawText t.name = true) (hopen : t.selfClosing = false)
    {content closing : List Char} (hclosing : IsClosingTag t.name closing) (rest : List Char) :
    (¬ HoldsEndTag t.name content →
      elementStart (t.text ++ (content ++ (closing ++ rest))) =
        some (.whole ⟨t.name, t.attributes.map (·.entry), rawContents content⟩, rest)) ∧
    (HoldsEndTag t.name content → ¬ HoldsClosingTag t.name content →
      elementStart (t.text ++ (content ++ (closing ++ rest))) = none) := by
  have htag := ht.openingTag_eq_some (content ++ (closing ++ rest))
  have hname : IsName t.tag.name := ht.name
  rw [elementStart_of_openingTag htag hkind hopen]
  exact rawElement_content hname hclosing rest

end MarkupQuery.Markup

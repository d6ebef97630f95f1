import Mathlib.Data.List.Chain
import Mathlib.Tactic.MkIffOfInductiveProp
import MarkupQuery.Proofs.Markup.Names

/-!
# MarkupQuery.Proofs.Markup.TagStyles — opening tags in every style

An attribute may be a key alone, or have a value in quotes of either kind or without quotes, with
blanks around its `=`. Tags are given here part by part with all their blanks (`WrittenTag`), and
a tag is well-formed if its parts are and blanks stand where they are needed: behind the name,
and behind what has no quote to end it.

An opening tag is read back from its text, whatever stands behind it (`openingTag_text`). What
decides is where an attribute ends: `ValueStyle.EndsAt` says in front of which texts each style
does, and `endsAt_attributes` and `WrittenTag.WellFormed.endsAt_endText` that what follows it in
a well-formed tag is such a text.
-/

namespace MarkupQuery.Markup

open Reader

/-! ## Tags as they are written -/

/-- Of all the characters only those of the list are tried. -/
local instance decidableForallMem (p : Char → Prop) [DecidablePred p] (cs : List Char) :
    Decidable (∀ c ∈ cs, p c) :=
  List.decidableBAll p cs

/-- The styles of a value. -/
inductive ValueStyle where
  /-- no value is written, and it is empty -/
  | bare
  | doubleQuoted
  | singleQuoted
  | unquoted
deriving Repr, DecidableEq

namespace ValueStyle

/-- The value ends with a quote. -/
def IsQuoted (style : ValueStyle) : Prop :=
  style = .doubleQuoted ∨ style = .singleQuoted

/-- The value can be written in this style. -/
def Allows (style : ValueStyle) (value : List Char) : Prop :=
  match style with
  | .bare => value = []
  | .doubleQuoted => '"' ∉ value
  | .singleQuoted => '\'' ∉ value
  | .unquoted => value ≠ [] ∧ (∀ c ∈ value, c ∉ [' ', '\t', '\r', '\n', '>']) ∧
      value.head? ≠ some '"' ∧ value.head? ≠ some '\''

/-- What is written for a value. -/
def text (style : ValueStyle) (value : List Char) : List Char :=
  match style with
  | .bare => []
  | .doubleQuoted => '"' :: (value ++ ['"'])
  | .singleQuoted => '\'' :: (value ++ ['\''])
  | .unquoted => value

instance (style : ValueStyle) : Decidable style.IsQuoted :=
  inferInstanceAs (Decidable (_ ∨ _))

instance (style : ValueStyle) (value : List Char) : Decidable (style.Allows value) :=
  match style with
  | .bare => inferInstanceAs (Decidable (value = []))
  | .doubleQuoted => inferInstanceAs (Decidable ('"' ∉ value))
  | .singleQuoted => inferInstanceAs (Decidable ('\'' ∉ value))
  | .unquoted => inferInstanceAs (Decidable (_ ∧ _))

end ValueStyle

/-- An attribute in a tag: the blanks in front of its key, and those on the two sides of the
`=`, if it has one. -/
structure WrittenAttribute where
  entry : Attribute
  style : ValueStyle
  lead : List Char
  beforeEquals : List Char
  afterEquals : List Char
deriving Repr, DecidableEq

namespace WrittenAttribute

/-- The text of an attribute, with the blanks in front of it. -/
def text (a : WrittenAttribute) : List Char :=
  a.lead ++ (a.entry.key.toList ++
    if a.style = .bare then []
    else a.beforeEquals ++ '=' :: (a.afterEquals ++ a.style.text a.entry.value.toList))

/-- The key is a key, the style is one for the value, and the blanks are blanks. -/
@[mk_iff]
structure WellFormed (a : WrittenAttribute) : Prop where
  key_ne_nil : a.entry.key.toList ≠ []
  key_free : ∀ c ∈ a.entry.key.toList,
    c ∉ [' ', '\t', '\r', '\n', '"', '\'', '>', '/', '=']
  value : a.style.Allows a.entry.value.toList
  lead : ∀ c ∈ a.lead, isBlank c = true
  beforeEquals : ∀ c ∈ a.beforeEquals, isBlank c = true
  afterEquals : ∀ c ∈ a.afterEquals, isBlank c = true

instance (a : WrittenAttribute) : Decidable a.WellFormed :=
  decidable_of_iff _ (wellFormed_iff a).symm

end WrittenAttribute

/-- An opening tag with its blanks: those in front of its end stand in `ending`. -/
structure WrittenTag where
  name : String
  attributes : List WrittenAttribute
  ending : List Char
  selfClosing : Bool
deriving Repr, DecidableEq

namespace WrittenTag

/-- What ends the tag. -/
def endMark (t : WrittenTag) : List Char :=
  if t.selfClosing then ['/', '>'] else ['>']

/-- What stands behind the last attribute. -/
def endText (t : WrittenTag) : List Char :=
  t.ending ++ t.endMark

/-- The text of a tag. -/
def text (t : WrittenTag) : List Char :=
  '<' :: (t.name.toList ++ (t.attributes.flatMap WrittenAttribute.text ++ t.endText))

/-- What the tag says. -/
def tag (t : WrittenTag) : OpeningTag :=
  ⟨t.name, t.attributes.map (·.entry), t.selfClosing⟩

/-- The parts of the tag are well-formed. Blanks stand in front of the first attribute, and in
front of each that does not follow a quote; and in front of a `/` that follows a value without
quotes, which it would belong to otherwise. -/
@[mk_iff]
structure WellFormed (t : WrittenTag) : Prop where
  name : IsName t.name
  attributes : ∀ a ∈ t.attributes, a.WellFormed
  first : ∀ a ∈ t.attributes.head?, a.lead ≠ []
  next : t.attributes.IsChain fun a b => a.style.IsQuoted ∨ b.lead ≠ []
  ending : ∀ c ∈ t.ending, isBlank c = true
  slash : t.selfClosing = true → ∀ a ∈ t.attributes.getLast?, a.style = .unquoted → t.ending ≠ []

instance (t : WrittenTag) : Decidable t.WellFormed :=
  have : Decidable (IsName t.name) := decidable_of_iff _ isName_iff.symm
  decidable_of_iff _ (wellFormed_iff t).symm

end WrittenTag

/-! ## Where an attribute ends -/

/-- In front of this text an attribute in this style ends. -/
def ValueStyle.EndsAt (style : ValueStyle) (t : List Char) : Prop :=
  match style with
  | .bare => (∀ c ∈ t.head?, isKeyChar c = false) ∧ ∀ c ∈ (skipBlanks t).head?, c ≠ '='
  | .doubleQuoted => True
  | .singleQuoted => True
  | .unquoted => ∀ c ∈ t.head?, isBareValueChar c = false

/-- A value in quotes ends anywhere. -/
theorem ValueStyle.IsQuoted.endsAt {style : ValueStyle} (h : style.IsQuoted) (t : List Char) :
    style.EndsAt t := by
  rcases h with rfl | rfl
  · trivial
  · trivial

/-- An attribute in any style ends in front of a blank, if behind the blanks stands no `=`. -/
theorem ValueStyle.endsAt_of_blank (style : ValueStyle) {c : Char} {t : List Char}
    (hc : isBlank c = true) (ht : ∀ d ∈ (skipBlanks (c :: t)).head?, d ≠ '=') :
    style.EndsAt (c :: t) := by
  cases style with
  | bare => exact ⟨by simp [isKeyChar, hc], ht⟩
  | doubleQuoted => trivial
  | singleQuoted => trivial
  | unquoted => simp [EndsAt, isBareValueChar, hc]

/-! ## One attribute -/

/-- What is written for a value is read as the value. -/
theorem attributeValue_text {style : ValueStyle} {value t : List Char} (hbare : style ≠ .bare)
    (hvalue : style.Allows value) (ht : style.EndsAt t) :
    attributeValue (style.text value ++ t) = some (value, t) := by
  cases style with
  | bare => exact absurd rfl hbare
  | doubleQuoted =>
    have hread : before '"' (value ++ '"' :: t) = some (value, t) :=
      before_eq_some_iff.2 ⟨rfl, fun c hc h => hvalue (h ▸ hc)⟩
    simp [ValueStyle.text, attributeValue, hread]
  | singleQuoted =>
    have hread : before '\'' (value ++ '\'' :: t) = some (value, t) :=
      before_eq_some_iff.2 ⟨rfl, fun c hc h => hvalue (h ▸ hc)⟩
    simp [ValueStyle.text, attributeValue, hread]
  | unquoted =>
    obtain ⟨hne, hfree, hdouble, hsingle⟩ := hvalue
    have hchars : ∀ c ∈ value, isBareValueChar c = true := by
      intro c hc
      have hmem := hfree c hc
      simp only [List.mem_cons, not_or] at hmem
      simp [isBareValueChar, isBlank, hmem]
    have hrun : run isBareValueChar (value ++ t) = some (value, t) := run_append hne hchars ht
    -- the first character is no quote
    obtain ⟨c, cs, rfl⟩ := List.exists_cons_of_ne_nil hne
    rw [ValueStyle.text]
    unfold attributeValue
    split
    · simp_all
    · simp_all
    · exact hrun

/-- What is written for a value does not start with a blank. -/
theorem exists_text_eq_cons {style : ValueStyle} {value : List Char} (hbare : style ≠ .bare)
    (hvalue : style.Allows value) :
    ∃ c cs, style.text value = c :: cs ∧ isBlank c = false := by
  cases style with
  | bare => exact absurd rfl hbare
  | doubleQuoted => exact ⟨_, _, rfl, rfl⟩
  | singleQuoted => exact ⟨_, _, rfl, rfl⟩
  | unquoted =>
    obtain ⟨hne, hfree, -, -⟩ := hvalue
    obtain ⟨c, cs, rfl⟩ := List.exists_cons_of_ne_nil hne
    have hmem := hfree c List.mem_cons_self
    simp only [List.mem_cons, not_or] at hmem
    exact ⟨c, cs, rfl, by simp [isBlank, hmem]⟩

/-- Behind a key stands its value, with blanks around the `=`. -/
theorem assignedValue_text {style : ValueStyle} {value left right t : List Char}
    (hbare : style ≠ .bare) (hvalue : style.Allows value) (ht : style.EndsAt t)
    (hleft : ∀ c ∈ left, isBlank c = true) (hright : ∀ c ∈ right, isBlank c = true) :
    assignedValue (left ++ '=' :: (right ++ (style.text value ++ t))) = some (value, t) := by
  have hequals : skipBlanks (left ++ '=' :: (right ++ (style.text value ++ t))) =
      '=' :: (right ++ (style.text value ++ t)) :=
    (skipBlanks_eq_cons_iff (by decide)).2 ⟨left, hleft, rfl⟩
  have hskip : skipBlanks (right ++ (style.text value ++ t)) = style.text value ++ t := by
    obtain ⟨c, cs, htext, hc⟩ := exists_text_eq_cons hbare hvalue
    rw [htext, List.cons_append]
    exact (skipBlanks_eq_cons_iff hc).2 ⟨right, hright, rfl⟩
  rw [assignedValue]
  simp only [hequals, hskip]
  exact attributeValue_text hbare hvalue ht

/-- Behind a bare key no value is found. -/
theorem assignedValue_eq_none {t : List Char} (ht : ∀ c ∈ (skipBlanks t).head?, c ≠ '=') :
    assignedValue t = none := by
  unfold assignedValue
  split
  · rename_i rest heq
    exact absurd rfl (ht '=' (by simp [heq]))
  · rfl

/-- The key of an attribute is read behind the blanks in front of it. -/
theorem WrittenAttribute.WellFormed.skipBlanks_lead {a : WrittenAttribute} (h : a.WellFormed)
    (t : List Char) :
    skipBlanks (a.lead ++ (a.entry.key.toList ++ t)) = a.entry.key.toList ++ t := by
  obtain ⟨k, ks, hk⟩ := List.exists_cons_of_ne_nil h.key_ne_nil
  have hkey : isKeyChar k = true := isKeyChar_of_free (h.key_free k (by simp [hk]))
  have hblank : isBlank k = false := by
    cases hb : isBlank k with
    | false => rfl
    | true =>
      rw [isKeyChar_of_isBlank hb] at hkey
      simp at hkey
  rw [hk, List.cons_append]
  exact (skipBlanks_eq_cons_iff hblank).2 ⟨a.lead, h.lead, rfl⟩

/-- A written attribute is read back in front of a text that ends it. -/
theorem nextAttribute_text {a : WrittenAttribute} (h : a.WellFormed) {t : List Char}
    (ht : a.style.EndsAt t) : nextAttribute (a.text ++ t) = some (a.entry, t) := by
  have hkeys : ∀ c ∈ a.entry.key.toList, isKeyChar c = true :=
    fun c hc => isKeyChar_of_free (h.key_free c hc)
  by_cases hbare : a.style = .bare
  · -- the key stops at what follows, and there is no value
    have hvalue := h.value
    rw [hbare] at hvalue ht
    have hempty : a.entry.value = "" := String.toList_eq_nil_iff.1 hvalue
    have hkey : run isKeyChar (a.entry.key.toList ++ t) = some (a.entry.key.toList, t) :=
      run_append h.key_ne_nil hkeys ht.1
    have htext : a.text ++ t = a.lead ++ (a.entry.key.toList ++ t) := by
      simp [WrittenAttribute.text, hbare]
    rw [htext, nextAttribute, h.skipBlanks_lead, keyValue]
    simp only [hkey, assignedValue_eq_none ht.2, String.ofList_toList, ← hempty]
  · have hequals : ∀ c ∈ (a.beforeEquals ++ '=' :: (a.afterEquals ++
        (a.style.text a.entry.value.toList ++ t))).head?, isKeyChar c = false := by
      intro c hc
      cases hb : a.beforeEquals with
      | nil =>
        rw [hb, List.nil_append, List.head?_cons, Option.mem_some_iff] at hc
        rw [← hc]
        rfl
      | cons d ds =>
        rw [hb, List.cons_append, List.head?_cons, Option.mem_some_iff] at hc
        rw [← hc]
        exact isKeyChar_of_isBlank (h.beforeEquals d (by simp [hb]))
    have hkey := run_append h.key_ne_nil hkeys hequals
    have hvalue := assignedValue_text hbare h.value ht h.beforeEquals h.afterEquals
    have htext : a.text ++ t = a.lead ++ (a.entry.key.toList ++ (a.beforeEquals ++ '=' ::
        (a.afterEquals ++ (a.style.text a.entry.value.toList ++ t)))) := by
      simp [WrittenAttribute.text, hbare]
    rw [htext, nextAttribute, h.skipBlanks_lead, keyValue]
    simp only [hkey, hvalue, String.ofList_toList]

/-! ## The attributes of a tag -/

/-- An attribute ends in front of those behind it, if it is quoted or blanks follow it. -/
theorem endsAt_attributes {style : ValueStyle} {as : List WrittenAttribute}
    (has : ∀ b ∈ as, b.WellFormed) (hnext : ∀ b ∈ as.head?, style.IsQuoted ∨ b.lead ≠ [])
    {tail : List Char} (htail : as = [] → style.EndsAt tail) :
    style.EndsAt (as.flatMap WrittenAttribute.text ++ tail) := by
  cases as with
  | nil => exact htail rfl
  | cons b as =>
    have hb := has b List.mem_cons_self
    rcases hnext b rfl with hquoted | hlead
    · exact hquoted.endsAt _
    · obtain ⟨more, hmore⟩ : ∃ more, (b :: as).flatMap WrittenAttribute.text ++ tail =
          b.lead ++ (b.entry.key.toList ++ more) := by
        simp [WrittenAttribute.text]
      obtain ⟨k, ks, hk⟩ := List.exists_cons_of_ne_nil hb.key_ne_nil
      have hkey : k ≠ '=' := by
        rintro rfl
        exact hb.key_free '=' (by simp [hk]) (by simp)
      -- behind the blanks stands the next key, and that is no `=`
      have hskip := hb.skipBlanks_lead more
      obtain ⟨c, cs, hc⟩ := List.exists_cons_of_ne_nil hlead
      rw [hmore, hc, List.cons_append]
      rw [hc, List.cons_append] at hskip
      apply style.endsAt_of_blank (hb.lead c (by simp [hc]))
      rw [hskip, hk]
      simpa using hkey

/-- Attributes are read back one behind the other, up to a text in front of which the last of
them ends and no further one stands. -/
theorem many_nextAttribute_text {as : List WrittenAttribute} (has : ∀ a ∈ as, a.WellFormed)
    (hnext : as.IsChain fun a b => a.style.IsQuoted ∨ b.lead ≠ []) {tail : List Char}
    (hlast : ∀ a ∈ as.getLast?, a.style.EndsAt tail) (hnone : nextAttribute tail = none) :
    many nextAttribute nextAttribute_consumes (as.flatMap WrittenAttribute.text ++ tail) =
      (as.map (·.entry), tail) := by
  induction as with
  | nil => exact many_of_none hnone
  | cons a as ih =>
    obtain ⟨hside, hnext⟩ := List.isChain_cons.1 hnext
    have has' : ∀ b ∈ as, b.WellFormed := fun b hb => has b (List.mem_cons_of_mem a hb)
    have hends : a.style.EndsAt (as.flatMap WrittenAttribute.text ++ tail) := by
      apply endsAt_attributes has' hside
      rintro rfl
      exact hlast a rfl
    have hread := nextAttribute_text (has a List.mem_cons_self) hends
    rw [List.flatMap_cons, List.append_assoc, many_of_some hread, ih has' hnext]
    · rfl
    · intro b hb
      apply hlast
      cases as with
      | nil => simp at hb
      | cons c as => exact hb

/-! ## A whole tag -/

namespace WrittenTag

variable {t : WrittenTag}

/-- A tag ends in one of two ways. -/
theorem endMark_cases (t : WrittenTag) :
    (t.selfClosing = false ∧ t.endMark = ['>']) ∨
      (t.selfClosing = true ∧ t.endMark = ['/', '>']) := by
  unfold endMark
  cases t.selfClosing <;> simp

/-- What ends a tag stands behind the blanks. -/
theorem WellFormed.skipBlanks_endText (h : t.WellFormed) (rest : List Char) :
    skipBlanks (t.endText ++ rest) = t.endMark ++ rest := by
  rw [endText, List.append_assoc]
  rcases t.endMark_cases with ⟨-, hmark⟩ | ⟨-, hmark⟩
  · rw [hmark]
    exact (skipBlanks_eq_cons_iff (by decide)).2 ⟨t.ending, h.ending, rfl⟩
  · rw [hmark]
    exact (skipBlanks_eq_cons_iff (by decide)).2 ⟨t.ending, h.ending, rfl⟩

/-- No attribute stands in the end of a tag. -/
theorem WellFormed.nextAttribute_endText (h : t.WellFormed) (rest : List Char) :
    nextAttribute (t.endText ++ rest) = none := by
  rw [nextAttribute, h.skipBlanks_endText]
  rcases t.endMark_cases with ⟨-, hmark⟩ | ⟨-, hmark⟩
  · rw [hmark]
    rfl
  · rw [hmark]
    rfl

/-- An attribute ends in front of the end of a tag, unless a `/` would go on its value. -/
theorem WellFormed.endsAt_endText (h : t.WellFormed) {style : ValueStyle}
    (hslash : t.selfClosing = true → style = .unquoted → t.ending ≠ []) (rest : List Char) :
    style.EndsAt (t.endText ++ rest) := by
  have hskip := h.skipBlanks_endText rest
  cases hending : t.ending with
  | nil =>
    rw [endText, hending, List.nil_append]
    rcases t.endMark_cases with ⟨-, hmark⟩ | ⟨hself, hmark⟩
    · rw [hmark]
      cases style with
      | bare => simp [ValueStyle.EndsAt, isKeyChar, skipBlanks, isBlank]
      | doubleQuoted => trivial
      | singleQuoted => trivial
      | unquoted => simp [ValueStyle.EndsAt, isBareValueChar]
    · rw [hmark]
      cases style with
      | bare => simp [ValueStyle.EndsAt, isKeyChar, skipBlanks, isBlank]
      | doubleQuoted => trivial
      | singleQuoted => trivial
      | unquoted => exact absurd hending (hslash hself rfl)
  | cons c cs =>
    rw [endText, hending, List.cons_append, List.cons_append] at hskip ⊢
    apply style.endsAt_of_blank (h.ending c (by simp [hending]))
    rw [hskip]
    rcases t.endMark_cases with ⟨-, hmark⟩ | ⟨-, hmark⟩ <;> simp [hmark]

/-- The name of a tag ends in front of what follows it. -/
theorem WellFormed.name_ends (h : t.WellFormed) (rest : List Char) :
    ∀ c ∈ (t.attributes.flatMap WrittenAttribute.text ++ (t.endText ++ rest)).head?,
      isNameChar c = false := by
  cases hattributes : t.attributes with
  | nil =>
    rw [List.flatMap_nil, List.nil_append, endText]
    cases hending : t.ending with
    | nil => rcases t.endMark_cases with ⟨-, hmark⟩ | ⟨-, hmark⟩ <;> simp [hmark] <;> decide
    | cons c cs => simpa using isNameChar_of_isBlank (h.ending c (by simp [hending]))
  | cons a as =>
    have hlead := h.first a (by simp [hattributes])
    obtain ⟨c, cs, hc⟩ := List.exists_cons_of_ne_nil hlead
    have hblank := (h.attributes a (by simp [hattributes])).lead c (by simp [hc])
    simpa [WrittenAttribute.text, hc] using isNameChar_of_isBlank hblank

/-- The attributes of a tag are read one behind the other up to its end. -/
theorem WellFormed.many_nextAttribute (h : t.WellFormed) (rest : List Char) :
    many nextAttribute nextAttribute_consumes
        (t.attributes.flatMap WrittenAttribute.text ++ (t.endText ++ rest)) =
      (t.attributes.map (·.entry), t.endText ++ rest) := by
  have hlast : ∀ a ∈ t.attributes.getLast?, a.style.EndsAt (t.endText ++ rest) :=
    fun a ha => h.endsAt_endText (fun hself => h.slash hself a ha) rest
  exact many_nextAttribute_text h.attributes h.next hlast (h.nextAttribute_endText rest)

/-- What a tag says is read from its text. -/
theorem WellFormed.openingTag_eq_some (h : t.WellFormed) (rest : List Char) :
    openingTag (t.text ++ rest) = some (t.tag, rest) := by
  have htext : t.text ++ rest = '<' :: (t.name.toList ++
      (t.attributes.flatMap WrittenAttribute.text ++ (t.endText ++ rest))) := by
    simp [text]
  rw [htext, openingTag]
  simp only [tagName_append h.name (h.name_ends rest), h.many_nextAttribute,
    h.skipBlanks_endText]
  rcases t.endMark_cases with ⟨hself, hmark⟩ | ⟨hself, hmark⟩
  · simp only [hmark, tag, hself]
    rfl
  · simp only [hmark, tag, hself]
    rfl

end WrittenTag

/-- A well-formed opening tag in any style is read back from its text, whatever stands behind it:
its name, its attributes with their values as they were given, and whether it closes itself. -/
theorem openingTag_text {t : WrittenTag} (h : t.WellFormed) (rest : List Char) :
    openingTag (t.text ++ rest) = some (t.tag, rest) :=
  h.openingTag_eq_some rest

/-- Attributes in all styles side by side: behind a quote no blank is needed, a value in quotes
keeps its `>`, and one without quotes its `=`, `/` and quote. -/
theorem openingTag_all_styles :
    let t : WrittenTag :=
      ⟨"a", [⟨⟨"b", ""⟩, .bare, [' '], [], []⟩, ⟨⟨"c", "d>"⟩, .doubleQuoted, ['\t'], [], []⟩,
        ⟨⟨"c", "=\""⟩, .singleQuoted, [], [' '], [' ']⟩,
        ⟨⟨"e", "=/f'/"⟩, .unquoted, [], ['\n'], []⟩], [' '], true⟩
    t.WellFormed ∧ t.text = "<a b\tc=\"d>\"c = '=\"'e\n==/f'/ />".toList ∧
      openingTag (t.text ++ "x\">".toList) =
        some (⟨"a", [⟨"b", ""⟩, ⟨"c", "d>"⟩, ⟨"c", "=\""⟩, ⟨"e", "=/f'/"⟩], true⟩,
          "x\">".toList) := by
  intro t
  have ht : t.WellFormed := by decide +kernel
  exact ⟨ht, by decide +kernel, openingTag_text ht _⟩

end MarkupQuery.Markup

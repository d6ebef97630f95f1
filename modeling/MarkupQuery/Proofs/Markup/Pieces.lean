import MarkupQuery.Proofs.Markup.RawText

/-!
# MarkupQuery.Proofs.Markup.Pieces — what the first piece of a text is

Eight kinds of texts start with a piece, and each says which piece it is and what is left
(`StartsPiece`); these are the pieces that are read (`token_eq_some_iff`). What holds of every
piece that is read is proved by these cases, and the code is not opened again.

An element is read in two parts, its opening tag and what completes it (`elementRest`), so that
what holds of both parts holds of the element (`elementStart_eq_some_iff`).
-/

namespace MarkupQuery.Markup

open Reader

variable {cs rest : List Char} {piece : Token}

/-! ## Comments -/

/-- A comment ends at the first `-->` behind its `<!--`. -/
theorem commentRest_eq_some_iff :
    commentRest cs = some (piece, rest) ↔ piece = .skipped ∧
      ∃ c, ¬ ['-', '-', '>'] <:+: c ∧ cs = c ++ '-' :: '-' :: '>' :: rest := by
  constructor
  · intro h
    unfold commentRest at h
    split at h
    · simp at h
    · rename_i passed tail hup
      simp only [Option.some.injEq, Prod.mk.injEq] at h
      obtain ⟨rfl, rfl⟩ := h
      obtain ⟨rfl, hends, hfirst⟩ := upTo_eq_some_iff.1 hup
      obtain ⟨rest, rfl⟩ := List.isPrefixOf_iff_prefix.1 hends
      refine ⟨rfl, passed, ?_, by simp⟩
      rintro ⟨u, v, rfl⟩
      have hearlier := hfirst u (['-', '-', '>'] ++ v) (by simp) (by simp)
      simp [endsComment] at hearlier
  · rintro ⟨rfl, c, hc, rfl⟩
    exact commentRest_append hc rest

/-! ## Elements -/

/-- What completes the piece that an opening tag starts: nothing, or raw text up to its end
tag. -/
def elementRest (tag : OpeningTag) : Reader Token := fun cs =>
  if tag.selfClosing || isVoid tag.name then
    some (.whole ⟨tag.name, tag.attributes, []⟩, cs)
  else if isRawText tag.name then rawElement tag cs
  else some (.opening tag.name tag.attributes, cs)

/-- An element starts with an opening tag, and what completes the piece stands behind it. -/
theorem elementStart_eq_some_iff :
    elementStart cs = some (piece, rest) ↔
      ∃ tag behind, openingTag cs = some (tag, behind) ∧
        elementRest tag behind = some (piece, rest) := by
  constructor
  · intro h
    unfold elementStart at h
    split at h
    · simp at h
    · rename_i tag behind htag
      exact ⟨tag, behind, htag, h⟩
  · rintro ⟨tag, behind, htag, h⟩
    simp only [elementStart, htag]
    exact h

/-- An element starts with a `<` and a letter. -/
theorem letter_of_elementStart (h : elementStart cs = some (piece, rest)) :
    ∃ c behind, cs = '<' :: c :: behind ∧ c.isAlpha = true := by
  unfold elementStart openingTag at h
  cases cs with
  | nil => simp at h
  | cons d cs =>
    by_cases hless : d = '<'
    · subst hless
      cases hname : tagName cs with
      | none => simp [hname] at h
      | some answer =>
        obtain ⟨⟨c, cs', hcs, halpha, -⟩, rfl⟩ := isName_of_tagName hname
        exact ⟨c, cs' ++ answer.2, by rw [hcs, List.cons_append], halpha⟩
    · simp [hless] at h

/-! ## One piece -/

/-- The text starts with this piece, and `rest` stands behind it. -/
inductive StartsPiece : List Char → Token → List Char → Prop where
  | comment {c rest : List Char} : ¬ ['-', '-', '>'] <:+: c →
      StartsPiece ('<' :: '!' :: '-' :: '-' :: (c ++ '-' :: '-' :: '>' :: rest)) .skipped rest
  | declaration {d rest : List Char} : (∀ c ∈ d, c ≠ '>') → ¬ ['-', '-'] <+: d →
      StartsPiece ('<' :: '!' :: (d ++ '>' :: rest)) .skipped rest
  | instruction {d rest : List Char} : (∀ c ∈ d, c ≠ '>') →
      StartsPiece ('<' :: '?' :: (d ++ '>' :: rest)) .skipped rest
  | closing {cs rest : List Char} {name : String} : closingTag cs = some (name, rest) →
      StartsPiece cs (.closing name) rest
  /-- a `</` that starts no closing tag -/
  | slash {rest : List Char} : closingTag ('<' :: '/' :: rest) = none →
      StartsPiece ('<' :: '/' :: rest) (.text "</") rest
  | element {cs rest : List Char} {piece : Token} : elementStart cs = some (piece, rest) →
      StartsPiece cs piece rest
  /-- a `<` in front of nothing that starts markup -/
  | less {rest : List Char} :
      (∀ c ∈ rest.head?, c.isAlpha = false ∧ c ≠ '!' ∧ c ≠ '?' ∧ c ≠ '/') →
      StartsPiece ('<' :: rest) (.text "<") rest
  | text {cs rest content : List Char} : run (· != '<') cs = some (content, rest) →
      StartsPiece cs (.text (String.ofList content)) rest

/-- What is read is the piece that the text starts with. -/
theorem startsPiece_of_token (h : token cs = some (piece, rest)) : StartsPiece cs piece rest := by
  unfold token at h
  split at h
  · -- a comment
    obtain ⟨rfl, c, hc, rfl⟩ := commentRest_eq_some_iff.1 h
    exact .comment hc
  · -- a declaration, which ends at a `>` and so does not become a comment
    rename_i hcomment
    obtain ⟨rfl, d, hfree, rfl⟩ := declarationRest_eq_some_iff.1 h
    have hdash : ¬ ['-', '-'] <+: d := by
      rintro ⟨more, rfl⟩
      exact hcomment _ rfl
    exact .declaration hfree hdash
  · obtain ⟨rfl, d, hfree, rfl⟩ := declarationRest_eq_some_iff.1 h
    exact .instruction hfree
  · -- a closing tag, or the text it starts with
    split at h
    · rename_i hclose
      simp only [Option.some.injEq, Prod.mk.injEq] at h
      obtain ⟨rfl, rfl⟩ := h
      exact .closing hclose
    · rename_i hnone
      simp only [Option.some.injEq, Prod.mk.injEq] at h
      obtain ⟨rfl, rfl⟩ := h
      exact .slash hnone
  · -- an element, or a `<` on its own
    rename_i hbang hask hslash
    split at h
    · exact .element h
    · rename_i hletter
      simp only [Option.some.injEq, Prod.mk.injEq] at h
      obtain ⟨rfl, rfl⟩ := h
      refine .less fun c hc => ?_
      obtain ⟨behind, rfl⟩ := List.head?_eq_some_iff.1 hc
      refine ⟨by simpa using hletter, ?_, ?_, ?_⟩
      · rintro rfl
        exact hbang behind rfl
      · rintro rfl
        exact hask behind rfl
      · rintro rfl
        exact hslash behind rfl
  · -- text
    obtain ⟨content, hrun, rfl⟩ := mapValue_eq_some_iff.1 h
    exact .text hrun

/-- The piece that a text starts with is read. -/
theorem StartsPiece.token_eq_some (h : StartsPiece cs piece rest) :
    token cs = some (piece, rest) := by
  cases h with
  | comment hc => exact commentRest_append hc rest
  | declaration hd hdash => exact token_declaration hd hdash rest
  | instruction hd => exact declarationRest_eq_some_iff.2 ⟨rfl, _, hd, rfl⟩
  | closing hclose =>
    obtain ⟨-, blanks, -, rfl⟩ := closingTag_eq_some_iff.1 hclose
    simp [token, hclose]
  | slash hnone => simp [token, hnone]
  | element hstart =>
    obtain ⟨c, behind, rfl, halpha⟩ := letter_of_elementStart hstart
    rw [token_letter halpha, hstart]
  | less hno =>
    cases rest with
    | nil => rfl
    | cons c rest => simp [token, hno c rfl]
  | text hrun =>
    obtain ⟨hne, rfl, rfl⟩ := run_eq_some_iff.1 hrun
    cases cs with
    | nil => exact absurd rfl hne
    | cons c cs =>
      have hc : c ≠ '<' := by
        rintro rfl
        exact hne rfl
      rw [token_plain hc]
      simp [hc]

theorem token_eq_some_iff : token cs = some (piece, rest) ↔ StartsPiece cs piece rest :=
  ⟨startsPiece_of_token, StartsPiece.token_eq_some⟩

/-- A raw text element is read as a whole. -/
theorem token_raw {name : String} {attributes : List Attribute} (hname : IsName name)
    (hattributes : ∀ a ∈ attributes, a.Writable) (hkind : isRawText name = true)
    {raw : List Char} (hraw : ¬ HoldsEndTag name raw) (t : List Char) :
    token (writtenOpening name attributes ++ (raw ++ (writtenClosing name ++ t))) =
      some (.whole ⟨name, attributes, rawContents raw⟩, t) := by
  have htag := openingTag_written hname hattributes (raw ++ (writtenClosing name ++ t))
  have hrest : elementRest ⟨name, attributes, false⟩ (raw ++ (writtenClosing name ++ t)) =
      some (.whole ⟨name, attributes, rawContents raw⟩, t) := by
    simp only [elementRest, isVoid_of_isRawText hkind, hkind]
    exact rawElement_append ⟨name, attributes, false⟩ hname (isClosingTag_written name) hraw t
  exact token_eq_some_iff.2 (.element (elementStart_eq_some_iff.2 ⟨_, _, htag, hrest⟩))

end MarkupQuery.Markup

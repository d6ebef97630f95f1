import MarkupQuery.Proofs.Markup.Shape
import MarkupQuery.Query

/-!
# MarkupQuery.Proofs.Markup.DeadEnd — where reading stops before the end of a text

Reading takes one piece behind the other, each of at least one character. The six kinds of
pieces cover every text but the dead ends (`DeadEnd`): a `<` that starts a comment, a
declaration, an opening tag or a raw text element, where that is not completed
(`token_eq_none_iff`). So reading stops at the end of the text or at the first dead end that
its pieces lead to, and a text without dead ends is a document as a whole.
-/

namespace MarkupQuery

namespace Markup

open Reader

/-- A text starts with markup that is not completed. -/
inductive DeadEnd : List Char → Prop where
  /-- a comment without its `-->` -/
  | comment {rest : List Char} :
      ¬ ['-', '-', '>'] <:+: rest → DeadEnd ('<' :: '!' :: '-' :: '-' :: rest)
  /-- a declaration without its `>` -/
  | declaration {rest : List Char} :
      ¬ ['-', '-'] <+: rest → '>' ∉ rest → DeadEnd ('<' :: '!' :: rest)
  /-- the same, with a question mark -/
  | instruction {rest : List Char} : '>' ∉ rest → DeadEnd ('<' :: '?' :: rest)
  /-- a letter behind the `<`, and no opening tag -/
  | openingTag {c : Char} {rest : List Char} :
      c.isAlpha = true → Markup.openingTag ('<' :: c :: rest) = none → DeadEnd ('<' :: c :: rest)
  /-- the opening tag of a raw text element whose raw text does not end -/
  | rawText {c : Char} {cs rest : List Char} {tag : OpeningTag} :
      c.isAlpha = true → Markup.openingTag ('<' :: c :: cs) = some (tag, rest) →
      isRawText tag.name = true → tag.selfClosing = false →
      (∀ raw behind, ¬ RawEnds tag.name rest raw behind) → DeadEnd ('<' :: c :: cs)

/-- A dead end starts with a `<` and what may start markup. -/
theorem DeadEnd.head {cs : List Char} (h : DeadEnd cs) :
    ∃ c rest, cs = '<' :: c :: rest ∧ (c.isAlpha = true ∨ c = '!' ∨ c = '?') := by
  cases h with
  | comment _ => exact ⟨_, _, rfl, .inr (.inl rfl)⟩
  | declaration _ _ => exact ⟨_, _, rfl, .inr (.inl rfl)⟩
  | instruction _ => exact ⟨_, _, rfl, .inr (.inr rfl)⟩
  | openingTag hc _ => exact ⟨_, _, rfl, .inl hc⟩
  | rawText hc _ _ _ _ => exact ⟨_, _, rfl, .inl hc⟩

theorem DeadEnd.ne_nil {cs : List Char} (h : DeadEnd cs) : cs ≠ [] := by
  obtain ⟨c, rest, rfl, -⟩ := h.head
  exact List.cons_ne_nil _ _

/-! ## Pieces that are not completed -/

/-- A comment is completed by a `-->`. -/
theorem commentRest_eq_none_iff {rest : List Char} :
    commentRest rest = none ↔ ¬ ['-', '-', '>'] <:+: rest := by
  have hsearch : commentRest rest = none ↔ upTo endsComment rest = none := by
    unfold commentRest
    split <;> simp [*]
  rw [hsearch, upTo_eq_none_iff]
  constructor
  · rintro hpass ⟨u, v, rfl⟩
    have hfails := hpass (['-', '-', '>'] ++ v) ⟨u, by simp⟩
    simp [endsComment] at hfails
  · intro hno s hs
    rw [Bool.eq_false_iff]
    intro hends
    have hfront : ['-', '-', '>'] <+: s := List.isPrefixOf_iff_prefix.1 hends
    exact hno (hfront.isInfix.trans hs.isInfix)

/-- A declaration is completed by a `>`. -/
theorem declarationRest_eq_none_iff {rest : List Char} :
    declarationRest rest = none ↔ '>' ∉ rest := by
  rw [declarationRest, mapValue_eq_none_iff, before_eq_none_iff]

/-- An element does not start where there is no opening tag, or one of raw text that does not
end. -/
theorem elementStart_eq_none_iff {cs : List Char} :
    elementStart cs = none ↔ openingTag cs = none ∨ ∃ tag rest,
      openingTag cs = some (tag, rest) ∧ isRawText tag.name = true ∧ tag.selfClosing = false ∧
        ∀ raw behind, ¬ RawEnds tag.name rest raw behind := by
  constructor
  · intro hnone
    unfold elementStart at hnone
    split at hnone
    · rename_i htag
      exact .inl htag
    · rename_i tag rest htag
      split at hnone
      · simp at hnone
      · rename_i hholds
        have hopen : tag.selfClosing = false := by
          simp only [Bool.or_eq_true, not_or, Bool.not_eq_true] at hholds
          exact hholds.1
        split at hnone
        · rename_i hkind
          have hno := (rawElement_eq_none_iff (openingTag_wellShaped htag).1).1 hnone
          exact .inr ⟨tag, rest, htag, hkind, hopen, hno⟩
        · simp at hnone
  · rintro (htag | ⟨tag, rest, htag, hkind, hopen, hno⟩)
    · simp only [elementStart, htag]
    · have hnone := (rawElement_eq_none_iff (openingTag_wellShaped htag).1).2 hno
      simp [elementStart, htag, hopen, isVoid_of_isRawText hkind, hkind, hnone]

/-! ## Every text but the dead ends -/

/-- Where a `<` starts no piece there is a dead end. -/
theorem deadEnd_of_token_eq_none {rest : List Char} (hnone : token ('<' :: rest) = none) :
    DeadEnd ('<' :: rest) := by
  unfold token at hnone
  split at hnone
  · -- a comment
    rename_i behind heq
    obtain rfl := (List.cons.inj heq).2
    exact .comment (commentRest_eq_none_iff.1 hnone)
  · -- a declaration; one that went on with `--` would be a comment
    rename_i behind hcomment heq
    obtain rfl := (List.cons.inj heq).2
    refine .declaration ?_ (declarationRest_eq_none_iff.1 hnone)
    rintro ⟨behind', rfl⟩
    exact hcomment behind' rfl
  · rename_i behind heq
    obtain rfl := (List.cons.inj heq).2
    exact .instruction (declarationRest_eq_none_iff.1 hnone)
  · -- a closing tag, or else the text it starts with
    split at hnone <;> simp at hnone
  · -- an element, or else a `<` on its own
    rename_i heq
    obtain rfl := (List.cons.inj heq).2
    split at hnone
    · rename_i hletter
      obtain ⟨c, hc, halpha⟩ := (Option.any_eq_true _ _).1 hletter
      obtain ⟨behind, rfl⟩ := List.head?_eq_some_iff.1 hc
      rcases elementStart_eq_none_iff.1 hnone with htag | ⟨tag, after, htag, hkind, hopen, hno⟩
      · exact .openingTag halpha htag
      · exact .rawText halpha htag hkind hopen hno
    · simp at hnone
  · rename_i hless
    exact absurd rfl (hless rest)

/-- No piece is read at a dead end. -/
theorem DeadEnd.token_eq_none {cs : List Char} (h : DeadEnd cs) : token cs = none := by
  cases h with
  | comment hno => exact commentRest_eq_none_iff.2 hno
  | declaration hdash hno =>
    rw [token_bang hdash]
    exact declarationRest_eq_none_iff.2 hno
  | instruction hno => exact declarationRest_eq_none_iff.2 hno
  | openingTag hc htag =>
    rw [token_letter hc]
    exact elementStart_eq_none_iff.2 (.inl htag)
  | rawText hc htag hkind hopen hno =>
    rw [token_letter hc]
    exact elementStart_eq_none_iff.2 (.inr ⟨_, _, htag, hkind, hopen, hno⟩)

/-- No piece is read at the end of a text and at its dead ends, and nowhere else. -/
theorem token_eq_none_iff {cs : List Char} : token cs = none ↔ cs = [] ∨ DeadEnd cs := by
  constructor
  · intro hnone
    cases cs with
    | nil => exact .inl rfl
    | cons c rest =>
      by_cases hc : c = '<'
      · subst hc
        exact .inr (deadEnd_of_token_eq_none hnone)
      · rw [token_plain hc] at hnone
        simp at hnone
  · rintro (rfl | hdead)
    · rfl
    · exact hdead.token_eq_none

/-! ## Whole texts -/

/-- A document is what the pieces up to the end of a text, or up to a dead end, make. -/
theorem document_eq_iff {cs rest : List Char} {d : Document} :
    document cs = (d, rest) ↔
      ∃ ts, Takes token cs ts rest ∧ (rest = [] ∨ DeadEnd rest) ∧ d = buildTree ts := by
  rw [← token_eq_none_iff]
  constructor
  · intro h
    have htakes := many_takes token token_consumes cs
    obtain ⟨rfl, rfl⟩ := Prod.mk.inj h
    exact ⟨_, htakes.1, htakes.2, rfl⟩
  · rintro ⟨ts, htakes, hnone, rfl⟩
    have htokens := (many_eq_iff_takes (h := token_consumes)).2 ⟨htakes, hnone⟩
    rw [document, tokens, htokens]

/-- Reading ends at the end of the text or at a dead end. -/
theorem document_stops (cs : List Char) : (document cs).2 = [] ∨ DeadEnd (document cs).2 := by
  obtain ⟨ts, -, hstop, -⟩ := document_eq_iff.1 (Prod.eta (document cs)).symm
  exact hstop

/-- A text that leads to no dead end is read to its end. -/
theorem document_snd_eq_nil {cs : List Char} (h : ∀ rest, rest <:+ cs → ¬ DeadEnd rest) :
    (document cs).2 = [] := by
  rcases document_stops cs with hnil | hdead
  · exact hnil
  · exact absurd hdead (h _ (document_suffix cs))

/-- Reading a text as a whole fails exactly at the dead end that its pieces lead to. -/
theorem parse_eq_error_iff {text : String} {fault : Fault} :
    Markup.parse text = .error fault ↔ ∃ front ts rest, text.toList = front ++ rest ∧
      Takes token text.toList ts rest ∧ DeadEnd rest ∧ fault = ⟨utf8Length front, leftOver⟩ := by
  constructor
  · intro h
    obtain ⟨hleft, rfl⟩ := wholly_eq_error_iff.1 h
    obtain ⟨ts, htakes, hstop, -⟩ := document_eq_iff.1 (Prod.eta (document text.toList)).symm
    obtain ⟨front, hfront⟩ := document_suffix text.toList
    refine ⟨front, ts, _, hfront.symm, htakes, hstop.resolve_left hleft, ?_⟩
    rw [← offsetOf_append front (document text.toList).2, hfront]
  · rintro ⟨front, ts, rest, hfront, htakes, hdead, rfl⟩
    have hdocument := document_eq_iff.2 ⟨ts, htakes, .inr hdead, rfl⟩
    have hoffset : offsetOf text.toList rest = utf8Length front := by
      rw [hfront, offsetOf_append]
    rw [Markup.parse, hdocument, wholly_eq_error_iff, hoffset]
    exact ⟨hdead.ne_nil, rfl⟩

/-- Reading takes pieces of at least one character each, up to the end of a text or to a dead
end, and no dead end is passed. No query is made of a text exactly where its pieces lead to a
dead end, and the error points there. Where no `<` stands in front of a letter, a `!` or a `?`,
the text is read as a whole. -/
theorem parse_stops_at_deadEnd (text : String) :
    Consumes token ∧
    (∃ ts rest, Takes token text.toList ts rest ∧ (rest = [] ∨ DeadEnd rest) ∧
      document text.toList = (buildTree ts, rest)) ∧
    (∀ ts rest, Takes token text.toList ts rest → DeadEnd rest →
      document text.toList = (buildTree ts, rest)) ∧
    (∀ err, Query.parse text = .error err ↔ ∃ front ts rest, text.toList = front ++ rest ∧
      Takes token text.toList ts rest ∧ DeadEnd rest ∧
      err = .unreadable .html ⟨utf8Length front, leftOver⟩) ∧
    ((∀ front c behind, text.toList = front ++ '<' :: c :: behind →
        ¬ (c.isAlpha = true ∨ c = '!' ∨ c = '?')) →
      Query.parse text = .ok ⟨(document text.toList).1⟩) := by
  refine ⟨token_consumes, ?_, ?_, ?_, ?_⟩
  · obtain ⟨ts, htakes, hstop, hd⟩ := document_eq_iff.1 (Prod.eta (document text.toList)).symm
    exact ⟨ts, _, htakes, hstop, by rw [← hd]⟩
  · intro ts rest htakes hdead
    exact document_eq_iff.2 ⟨ts, htakes, .inr hdead, rfl⟩
  · intro err
    have hparse : Query.parse text = .error err ↔
        ∃ fault, Markup.parse text = .error fault ∧ err = .unreadable .html fault := by
      unfold Query.parse
      split <;> simp [*, eq_comm]
    rw [hparse]
    constructor
    · rintro ⟨fault, hfault, rfl⟩
      obtain ⟨front, ts, rest, hfront, htakes, hdead, rfl⟩ := parse_eq_error_iff.1 hfault
      exact ⟨front, ts, rest, hfront, htakes, hdead, rfl⟩
    · rintro ⟨front, ts, rest, hfront, htakes, hdead, rfl⟩
      exact ⟨_, parse_eq_error_iff.2 ⟨front, ts, rest, hfront, htakes, hdead, rfl⟩, rfl⟩
  · intro hplain
    have hread : (document text.toList).2 = [] := by
      apply document_snd_eq_nil
      rintro rest ⟨front, hfront⟩ hdead
      obtain ⟨c, behind, rfl, hc⟩ := hdead.head
      exact hplain front c behind hfront.symm hc
    have hwhole : Markup.parse text = .ok (document text.toList).1 :=
      wholly_eq_ok_iff.2 ⟨hread, rfl⟩
    rw [Query.parse, hwhole]

/-- The `-->` of a comment stands behind its `<!--`, so `<!--->` is a dead end. -/
theorem parse_short_comment :
    Query.parse (String.ofList ['p', '<', '!', '-', '-', '-', '>']) =
      .error (.unreadable .html ⟨1, leftOver⟩) := by
  have htext : token ['p', '<', '!', '-', '-', '-', '>'] =
      some (.text (String.ofList ['p']), ['<', '!', '-', '-', '-', '>']) :=
    token_plain (by decide) _
  have hdead : DeadEnd ['<', '!', '-', '-', '-', '>'] := .comment (by decide)
  have hlength : utf8Length ['p'] = 1 := by decide
  rw [← hlength]
  apply ((parse_stops_at_deadEnd _).2.2.2.1 _).2
  rw [String.toList_ofList]
  exact ⟨['p'], _, _, rfl, .cons htext .nil, hdead, rfl⟩

end Markup

end MarkupQuery

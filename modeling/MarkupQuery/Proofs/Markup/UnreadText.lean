import MarkupQuery.Proofs.Markup.DeadEnd
import MarkupQuery.Proofs.Text.Truncation

/-!
# MarkupQuery.Proofs.Markup.UnreadText — text that is not read has no influence

Pieces are read with the whole text in view: a quote is looked for to the end of the text, and
where it is missing the value is read in another way; a `<` is plain or not by what follows
it. Still no piece depends on what stands behind it. An opening tag is put together from
readers that ignore their rest (`openingTag_ignoresRest`), and every other piece either holds
the place where it ends or would not be completed by less text either
(`token_ignoresRest`).

So a text cut off where its reading stops is read to its end, with the same document.
-/

namespace MarkupQuery

namespace Markup

open Reader

/-! ## Opening tags -/

/-- A value is quoted in one of two ways, or it is a run. -/
theorem attributeValue_eq :
    attributeValue = either (behindChar '"' (before '"'))
      (either (behindChar '\'' (before '\'')) (run isBareValueChar)) := by
  funext cs
  unfold attributeValue
  split
  · simp [either, behindChar]
  · simp [either, behindChar]
  · rename_i hdouble hsingle
    cases cs with
    | nil => rfl
    | cons c cs =>
      have hno : c ≠ '"' ∧ c ≠ '\'' :=
        ⟨fun h => hdouble cs (by rw [h]), fun h => hsingle cs (by rw [h])⟩
      simp [either, behindChar, hno]

theorem attributeValue_ignoresRest : IgnoresRest attributeValue := by
  have hdouble := behindChar_ignoresRest '"' (before_ignoresRest '"')
  have hsingle := behindChar_ignoresRest '\'' (before_ignoresRest '\'')
  rw [attributeValue_eq]
  apply either_ignoresRest hdouble (behindChar_failsOnFronts _ (before_failsOnFronts _))
  apply either_ignoresRest hsingle (behindChar_failsOnFronts _ (before_failsOnFronts _))
  exact run_ignoresRest isBareValueChar

theorem attributeValue_failsOnFronts : FailsOnFronts attributeValue := by
  rw [attributeValue_eq]
  apply either_failsOnFronts (behindChar_failsOnFronts _ (before_failsOnFronts _))
  apply either_failsOnFronts (behindChar_failsOnFronts _ (before_failsOnFronts _))
  exact run_failsOnFronts isBareValueChar

/-- A value stands behind an `=` with blanks around it. -/
theorem assignedValue_eq :
    assignedValue = behindBlanks (behindChar '=' (behindBlanks attributeValue)) := by
  funext cs
  unfold assignedValue behindBlanks
  split
  · rename_i rest heq
    rw [heq, behindChar_self]
  · rename_i hno
    cases hskip : skipBlanks cs with
    | nil => rfl
    | cons c rest =>
      have hne : c ≠ '=' := fun h => hno rest (by rw [hskip, h])
      simp [behindChar, hne]

theorem assignedValue_ignoresRest : IgnoresRest assignedValue := by
  rw [assignedValue_eq]
  apply behindBlanks_ignoresRest
  apply behindChar_ignoresRest
  exact behindBlanks_ignoresRest attributeValue_ignoresRest

theorem assignedValue_failsOnFronts : FailsOnFronts assignedValue := by
  rw [assignedValue_eq]
  apply behindBlanks_failsOnFronts
  apply behindChar_failsOnFronts
  exact behindBlanks_failsOnFronts attributeValue_failsOnFronts

/-- A key may have a value behind it. -/
theorem keyValue_eq :
    keyValue = mapValue (fun x => ⟨String.ofList x.1, String.ofList (x.2.getD [])⟩)
      (andThen (run isKeyChar) (orNothing assignedValue)) := by
  funext cs
  unfold keyValue mapValue andThen
  cases run isKeyChar cs with
  | none => rfl
  | some answer =>
    obtain ⟨key, tail⟩ := answer
    simp only [orNothing, mapValue]
    cases assignedValue tail <;> rfl

theorem keyValue_ignoresRest : IgnoresRest keyValue := by
  have hvalue := orNothing_ignoresRest assignedValue_ignoresRest assignedValue_failsOnFronts
  rw [keyValue_eq]
  exact mapValue_ignoresRest _ (andThen_ignoresRest (run_ignoresRest isKeyChar) hvalue)

theorem nextAttribute_ignoresRest : IgnoresRest nextAttribute :=
  behindBlanks_ignoresRest keyValue_ignoresRest

theorem nextAttribute_failsOnFronts : FailsOnFronts nextAttribute := by
  have hkeyValue : FailsOnFronts keyValue := by
    rw [keyValue_eq]
    apply mapValue_failsOnFronts
    exact andThen_failsOnFronts (run_failsOnFronts isKeyChar) (orNothing_ne_none assignedValue)
  exact behindBlanks_failsOnFronts hkeyValue

/-- Behind a name stands a character that is in no name, if any. -/
theorem not_isNameChar_of_tagName {cs rest : List Char} {name : String}
    (h : tagName cs = some (name, rest)) : ∀ c ∈ rest.head?, isNameChar c = false := by
  cases cs with
  | nil => simp [tagName] at h
  | cons c cs =>
    simp only [tagName] at h
    split at h
    · simp only [Option.some.injEq, Prod.mk.injEq] at h
      rw [← h.2]
      exact not_of_mem_head?_dropWhile
    · simp at h

theorem tagName_ignoresRest : IgnoresRest tagName := by
  intro cs name rest h
  have hends := not_isNameChar_of_tagName h
  obtain ⟨hname, rfl⟩ := isName_of_tagName h
  refine ⟨name.toList, rfl, ?_⟩
  intro rest' hfront
  exact tagName_append hname fun c hc => hends c (head?_of_front hfront c hc)

/-- The end of an opening tag, and whether the tag closes itself. -/
def tagEnd : Reader Bool
  | '>' :: rest => some (false, rest)
  | '/' :: '>' :: rest => some (true, rest)
  | _ => none

theorem tagEnd_endsItself : EndsItself tagEnd := by
  intro cs closes rest h
  unfold tagEnd at h
  split at h
  · simp only [Option.some.injEq, Prod.mk.injEq] at h
    obtain ⟨rfl, rfl⟩ := h
    exact ⟨['>'], rfl, fun _ => rfl⟩
  · simp only [Option.some.injEq, Prod.mk.injEq] at h
    obtain ⟨rfl, rfl⟩ := h
    exact ⟨['/', '>'], rfl, fun _ => rfl⟩
  · simp at h

/-- An opening tag is a name, any number of attributes, and its end. -/
theorem openingTag_eq :
    openingTag = mapValue (fun x => ⟨x.1, x.2.1, x.2.2⟩) (behindChar '<' (andThen tagName
      (andThen (repeated nextAttribute nextAttribute_consumes) (behindBlanks tagEnd)))) := by
  funext cs
  unfold openingTag
  split
  · rename_i cs
    rw [mapValue, behindChar_self, andThen]
    cases tagName cs with
    | none => rfl
    | some answer =>
      obtain ⟨name, tail⟩ := answer
      simp only [mapValue, andThen, repeated, behindBlanks]
      generalize skipBlanks (many nextAttribute nextAttribute_consumes tail).2 = behind
      unfold tagEnd
      split <;> simp_all
  · rename_i hno
    cases cs with
    | nil => rfl
    | cons c cs =>
      have hne : c ≠ '<' := fun h => hno cs (by rw [h])
      simp [mapValue, behindChar, hne]

/-- An opening tag taken apart. -/
theorem openingTag_eq_some_iff {cs rest : List Char} {tag : OpeningTag} :
    openingTag cs = some (tag, rest) ↔ ∃ t behind last, cs = '<' :: t ∧
      tagName t = some (tag.name, behind) ∧
      repeated nextAttribute nextAttribute_consumes behind = some (tag.attributes, last) ∧
      tagEnd (skipBlanks last) = some (tag.selfClosing, rest) := by
  rw [openingTag_eq]
  constructor
  · intro h
    obtain ⟨⟨name, attributes, closes⟩, hread, rfl⟩ := mapValue_eq_some_iff.1 h
    cases cs with
    | nil => simp [behindChar] at hread
    | cons c t =>
      by_cases hless : c = '<'
      · subst hless
        rw [behindChar_self] at hread
        obtain ⟨behind, hname, htail⟩ := andThen_eq_some_iff.1 hread
        obtain ⟨last, hattributes, hend⟩ := andThen_eq_some_iff.1 htail
        exact ⟨t, behind, last, rfl, hname, hattributes, hend⟩
      · simp [behindChar, hless] at hread
  · rintro ⟨t, behind, last, rfl, hname, hattributes, hend⟩
    refine mapValue_eq_some_iff.2 ⟨⟨tag.name, tag.attributes, tag.selfClosing⟩, ?_, rfl⟩
    rw [behindChar_self]
    exact andThen_eq_some_iff.2 ⟨behind, hname, andThen_eq_some_iff.2 ⟨last, hattributes, hend⟩⟩

theorem attributes_ignoresRest : IgnoresRest (repeated nextAttribute nextAttribute_consumes) :=
  repeated_ignoresRest nextAttribute_consumes nextAttribute_ignoresRest
    nextAttribute_failsOnFronts

theorem openingTag_ignoresRest : IgnoresRest openingTag := by
  rw [openingTag_eq]
  apply mapValue_ignoresRest
  apply behindChar_ignoresRest
  apply andThen_ignoresRest tagName_ignoresRest
  apply andThen_ignoresRest attributes_ignoresRest
  exact behindBlanks_ignoresRest tagEnd_endsItself.ignoresRest

/-! ## Other pieces -/

theorem closingTag_endsItself : EndsItself closingTag := by
  intro cs name rest h
  obtain ⟨hname, blanks, hblanks, rfl⟩ := closingTag_eq_some_iff.1 h
  refine ⟨'<' :: '/' :: (name.toList ++ (blanks ++ ['>'])), by simp, ?_⟩
  intro rest'
  exact closingTag_eq_some_iff.2 ⟨hname, blanks, hblanks, by simp⟩

/-- A closing tag at the front of a text stands there however the text goes on. -/
theorem closingTag_failsOnFronts : FailsOnFronts closingTag := by
  rintro cs front hnone ⟨more, rfl⟩
  cases hread : closingTag front with
  | none => rfl
  | some answer =>
    obtain ⟨name, rest⟩ := answer
    obtain ⟨taken, rfl, hany⟩ := closingTag_endsItself _ _ _ hread
    rw [List.append_assoc, hany] at hnone
    simp at hnone

/-- Raw text ends at its end tag, whatever stands behind that. -/
theorem rawElement_endsItself {tag : OpeningTag} (hname : IsName tag.name) :
    EndsItself (rawElement tag) := by
  intro cs piece rest h
  obtain ⟨raw, hends, rfl⟩ := (rawElement_eq_some_iff hname).1 h
  obtain ⟨hraw, closing, hclosing, rfl⟩ := (rawEnds_iff hname).1 hends
  refine ⟨raw ++ closing, by simp, ?_⟩
  intro rest'
  have hends' : RawEnds tag.name (raw ++ closing ++ rest') raw rest' :=
    (rawEnds_iff hname).2 ⟨hraw, closing, hclosing, by simp⟩
  exact (rawElement_eq_some_iff hname).2 ⟨raw, hends', rfl⟩

theorem elementRest_endsItself {tag : OpeningTag} (hname : IsName tag.name) :
    EndsItself (elementRest tag) := by
  intro cs piece rest h
  simp only [elementRest] at h ⊢
  split at h
  · rename_i hempty
    simp only [Option.some.injEq, Prod.mk.injEq] at h
    obtain ⟨rfl, rfl⟩ := h
    exact ⟨[], rfl, fun _ => if_pos hempty⟩
  · rename_i hholds
    simp only [if_neg hholds]
    split at h
    · rename_i hkind
      simp only [if_pos hkind]
      exact rawElement_endsItself hname _ _ _ h
    · rename_i hkind
      simp only [Option.some.injEq, Prod.mk.injEq] at h
      obtain ⟨rfl, rfl⟩ := h
      exact ⟨[], rfl, fun _ => if_neg hkind⟩

theorem elementStart_ignoresRest : IgnoresRest elementStart := by
  intro cs piece rest h
  obtain ⟨tag, behind, htag, hrest⟩ := elementStart_eq_some_iff.1 h
  obtain ⟨taken, rfl, hcut⟩ := openingTag_ignoresRest _ _ _ htag
  obtain ⟨taken', rfl, hany⟩ := elementRest_endsItself (openingTag_wellShaped htag).1 _ _ _ hrest
  refine ⟨taken ++ taken', by simp, ?_⟩
  intro rest' hfront
  have hmiddle : taken' ++ rest' <+: taken' ++ rest := (List.prefix_append_right_inj _).2 hfront
  rw [List.append_assoc]
  exact elementStart_eq_some_iff.2 ⟨tag, taken' ++ rest', hcut _ hmiddle, hany rest'⟩

/-- A piece stays what it is where the text ends earlier behind it. -/
theorem token_ignoresRest : IgnoresRest token := by
  intro cs piece rest h
  simp only [token_eq_some_iff]
  cases token_eq_some_iff.1 h with
  | @comment c _ hc =>
    refine ⟨'<' :: '!' :: '-' :: '-' :: (c ++ ['-', '-', '>']), by simp, ?_⟩
    intro rest' _
    simpa using StartsPiece.comment hc
  | @declaration d _ hd hdash =>
    refine ⟨'<' :: '!' :: (d ++ ['>']), by simp, ?_⟩
    intro rest' _
    simpa using StartsPiece.declaration hd hdash
  | @instruction d _ hd =>
    refine ⟨'<' :: '?' :: (d ++ ['>']), by simp, ?_⟩
    intro rest' _
    simpa using StartsPiece.instruction hd
  | closing hclose =>
    obtain ⟨taken, rfl, hany⟩ := closingTag_endsItself _ _ _ hclose
    exact ⟨taken, rfl, fun rest' _ => .closing (hany rest')⟩
  | slash hnone =>
    refine ⟨['<', '/'], rfl, ?_⟩
    intro rest' hfront
    exact .slash (closingTag_failsOnFronts _ _ hnone (by simpa using hfront))
  | element hstart =>
    obtain ⟨taken, rfl, hcut⟩ := elementStart_ignoresRest _ _ _ hstart
    exact ⟨taken, rfl, fun rest' hfront => .element (hcut rest' hfront)⟩
  | less hno =>
    refine ⟨['<'], rfl, ?_⟩
    intro rest' hfront
    exact .less fun c hc => hno c (head?_of_front hfront c hc)
  | text hrun =>
    obtain ⟨taken, rfl, hcut⟩ := run_ignoresRest _ _ _ _ hrun
    exact ⟨taken, rfl, fun rest' hfront => .text (hcut rest' hfront)⟩

/-! ## Whole texts -/

/-- A text that is cut off where its reading stops is read to its end, with the same
document. -/
theorem document_of_append {front rest : List Char} {d : Document}
    (h : document (front ++ rest) = (d, rest)) : document front = (d, []) := by
  obtain ⟨ts, htakes, -, rfl⟩ := document_eq_iff.1 h
  obtain ⟨taken, htaken, hcut⟩ := takes_ignoresRest token_ignoresRest htakes
  obtain rfl : front = taken := List.append_cancel_right htaken
  have hfront := hcut [] List.nil_prefix
  rw [List.append_nil] at hfront
  exact document_eq_iff.2 ⟨ts, hfront, .inl rfl, rfl⟩

/-- The text in front of a fault is as many bytes of the text as the fault says. -/
theorem toByteArray_front (front rest : List Char) :
    (String.ofList front).toByteArray =
      (String.ofList (front ++ rest)).toByteArray.extract 0 (utf8Length front) := by
  rw [String.ofList_append, String.toByteArray_append]
  exact (ByteArray.extract_append_eq_left rfl).symm

/-- What reading leaves of a text has no influence: without it the text is read to its end,
with the same document. So where a text cannot be read, as many bytes of it as the error says
can, and they give the document that was made of the text before reading stopped. -/
theorem unread_text_ignored (text : String) :
    (∃ front, text.toList = front ++ (document text.toList).2 ∧
      document front = ((document text.toList).1, [])) ∧
    ∀ err, Query.parse text = .error err → ∃ offset front,
      err = .unreadable .html ⟨offset, leftOver⟩ ∧
      front.toByteArray = text.toByteArray.extract 0 offset ∧
      Query.parse front = .ok ⟨(document text.toList).1⟩ := by
  obtain ⟨front, hfront⟩ := document_suffix text.toList
  have hread : document (front ++ (document text.toList).2) =
      ((document text.toList).1, (document text.toList).2) := by
    rw [hfront]
  have hdocument := document_of_append hread
  refine ⟨⟨front, hfront.symm, hdocument⟩, ?_⟩
  intro err herr
  have hoffset : utf8Length front = offsetOf text.toList (document text.toList).2 := by
    rw [← offsetOf_append front (document text.toList).2, hfront]
  refine ⟨utf8Length front, String.ofList front, ?_, ?_, ?_⟩
  · -- a query fails only where text is left
    unfold Query.parse at herr
    split at herr
    · rename_i fault hfault
      obtain ⟨-, rfl⟩ := wholly_eq_error_iff.1 hfault
      rw [← Except.error.inj herr, ← hoffset]
    · simp at herr
  · have hbytes := toByteArray_front front (document text.toList).2
    rwa [hfront, String.ofList_toList] at hbytes
  · have hwhole : Markup.parse (String.ofList front) = .ok (document text.toList).1 := by
      rw [Markup.parse, String.toList_ofList, hdocument]
      rfl
    rw [Query.parse, hwhole]

/-- A quote that is not closed, and a `</` in front of a comment that is not closed: what was
made of them does not change when the comment is cut off. -/
theorem parse_unclosed_quote :
    Query.parse "<a b=\"c></<!-- d" = .error (.unreadable .html ⟨10, leftOver⟩) ∧
      "<a b=\"c></".toByteArray = "<a b=\"c></<!-- d".toByteArray.extract 0 10 ∧
      Query.parse "<a b=\"c></" = .ok ⟨⟨[.element "a" [⟨"b", "\"c"⟩] [.text "</"]]⟩⟩ := by
  have hstops : Query.parse "<a b=\"c></<!-- d" = .error (.unreadable .html ⟨10, leftOver⟩) := by
    decide +kernel
  have hbytes : "<a b=\"c></".toByteArray = "<a b=\"c></<!-- d".toByteArray.extract 0 10 := by
    decide +kernel
  refine ⟨hstops, hbytes, ?_⟩
  obtain ⟨offset, front, herr, hfront, hparse⟩ := (unread_text_ignored _).2 _ hstops
  obtain rfl : 10 = offset := by simpa using herr
  obtain rfl : "<a b=\"c></" = front := String.toByteArray_inj.1 (hbytes.trans hfront.symm)
  rw [hparse]
  decide +kernel

end Markup

end MarkupQuery

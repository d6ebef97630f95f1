import MarkupQuery.Proofs.Markup.TagStyles

/-!
# MarkupQuery.Proofs.Markup.PieceReading — what is written is read back piece by piece

Tags and noise are read as what they were written from, whatever text stands behind them: an
opening tag because it is well-formed with its values in double quotes, a closing tag up to its
`>` and a comment up to its `-->`. In each case what is written holds no earlier place to stop
at.
-/

namespace MarkupQuery.Markup

open Reader

/-! ## Tags -/

/-- An attribute behind one blank, with its value in double quotes. -/
def WrittenAttribute.quoted (a : Attribute) : WrittenAttribute :=
  ⟨a, .doubleQuoted, [' '], [], []⟩

theorem WrittenAttribute.wellFormed_quoted {a : Attribute} (ha : a.Writable) :
    (quoted a).WellFormed where
  key_ne_nil := ha.key_ne_nil
  key_free := ha.key_free
  value := fun hmem => ha.value_free _ hmem rfl
  lead := by simp [quoted, isBlank]
  beforeEquals := by simp [quoted]
  afterEquals := by simp [quoted]

/-- A tag with such attributes only. -/
def WrittenTag.quoted (name : String) (attributes : List Attribute) : WrittenTag :=
  ⟨name, attributes.map WrittenAttribute.quoted, [], false⟩

theorem WrittenTag.wellFormed_quoted {name : String} {attributes : List Attribute}
    (hname : IsName name) (h : ∀ a ∈ attributes, a.Writable) :
    (quoted name attributes).WellFormed where
  name := hname
  attributes := List.forall_mem_map.2 fun a ha => WrittenAttribute.wellFormed_quoted (h a ha)
  first := by
    intro a ha
    obtain ⟨b, -, rfl⟩ := List.mem_map.1 (List.mem_of_mem_head? ha)
    exact List.cons_ne_nil _ _
  next := (List.isChain_map _).2 (List.pairwise_of_forall fun _ _ => .inl (.inl rfl)).isChain
  ending := by simp [quoted]
  slash := by simp [quoted]

/-- Opening tags are written like this. -/
theorem WrittenTag.text_quoted (name : String) (attributes : List Attribute) :
    (quoted name attributes).text = writtenOpening name attributes := by
  rw [text, quoted, List.flatMap_map]
  rfl

theorem WrittenTag.tag_quoted (name : String) (attributes : List Attribute) :
    (quoted name attributes).tag = ⟨name, attributes, false⟩ := by
  rw [tag, quoted, List.map_map]
  exact congrArg (OpeningTag.mk name · false) (List.map_id attributes)

/-- A written opening tag is read back. -/
theorem openingTag_written {name : String} {attributes : List Attribute} (hname : IsName name)
    (h : ∀ a ∈ attributes, a.Writable) (t : List Char) :
    openingTag (writtenOpening name attributes ++ t) = some (⟨name, attributes, false⟩, t) := by
  rw [← WrittenTag.text_quoted, ← WrittenTag.tag_quoted]
  exact (WrittenTag.wellFormed_quoted hname h).openingTag_eq_some t

/-- A closing tag is `</`, a name, blanks and `>`. -/
theorem closingTag_eq_some_iff {cs rest : List Char} {name : String} :
    closingTag cs = some (name, rest) ↔ IsName name ∧
      ∃ blanks, (∀ c ∈ blanks, isBlank c = true) ∧
        cs = '<' :: '/' :: (name.toList ++ (blanks ++ '>' :: rest)) := by
  constructor
  · intro h
    unfold closingTag at h
    split at h
    · rename_i cs
      split at h
      · simp at h
      · rename_i name' middle hname
        split at h
        · rename_i rest' hclose
          simp only [Option.some.injEq, Prod.mk.injEq] at h
          obtain ⟨rfl, rfl⟩ := h
          obtain ⟨hisName, rfl⟩ := isName_of_tagName hname
          obtain ⟨blanks, hblanks, rfl⟩ := (skipBlanks_eq_cons_iff (by decide)).1 hclose
          exact ⟨hisName, blanks, hblanks, rfl⟩
        · simp at h
    · simp at h
  · rintro ⟨hname, blanks, hblanks, rfl⟩
    -- neither a blank nor the end of the tag goes on the name
    have hends : ∀ c ∈ (blanks ++ '>' :: rest).head?, isNameChar c = false := by
      cases blanks with
      | nil => simp; decide
      | cons c blanks => simpa using isNameChar_of_isBlank (hblanks c List.mem_cons_self)
    have hskip : skipBlanks (blanks ++ '>' :: rest) = '>' :: rest :=
      (skipBlanks_eq_cons_iff (by decide)).2 ⟨blanks, hblanks, rfl⟩
    rw [closingTag]
    simp only [tagName_append hname hends, hskip]

/-- A written closing tag is read back. -/
theorem closingTag_written {name : String} (hname : IsName name) (t : List Char) :
    closingTag (writtenClosing name ++ t) = some (name, t) :=
  closingTag_eq_some_iff.2 ⟨hname, [], by simp, by simp [writtenClosing]⟩

/-- A written closing tag is a piece. -/
theorem token_closing {name : String} (hname : IsName name) (t : List Char) :
    token (writtenClosing name ++ t) = some (.closing name, t) := by
  have hread := closingTag_written hname t
  simp only [writtenClosing, List.cons_append] at hread ⊢
  simp only [token, hread]

/-- Where no markup starts there is no closing tag. -/
theorem closingTag_eq_none {follow : List Char} (h : StartsNothing follow) :
    closingTag ('<' :: follow) = none := by
  cases hread : closingTag ('<' :: follow) with
  | none => rfl
  | some answer =>
    obtain ⟨name, rest⟩ := answer
    obtain ⟨hname, blanks, hblanks, hcs⟩ := closingTag_eq_some_iff.1 hread
    exact absurd (List.cons.inj hcs).2 (h.closing name blanks rest hname hblanks)

/-! ## Noise -/

/-- A comment is read up to the `-->` it is written with. -/
theorem commentRest_append {c : List Char} (hc : ¬ ['-', '-', '>'] <:+: c) (t : List Char) :
    commentRest (c ++ '-' :: '-' :: '>' :: t) = some (.skipped, t) := by
  have hup : upTo endsComment (c ++ '-' :: '-' :: '>' :: t) = some (c, '-' :: '-' :: '>' :: t) := by
    apply upTo_append
    · intro u v huv hne
      rw [Bool.eq_false_iff]
      intro hends
      -- an end that starts inside the comment lies inside it, or its `>` is a `-`
      rcases v with _ | ⟨x, _ | ⟨y, _ | ⟨z, v⟩⟩⟩
      · exact hne rfl
      · simp [endsComment] at hends
      · simp [endsComment] at hends
      · simp only [endsComment, List.isPrefixOf_iff_prefix, List.cons_append,
          List.cons_prefix_cons] at hends
        obtain ⟨rfl, rfl, rfl, -⟩ := hends
        exact hc ⟨u, v, by simp [huv]⟩
    · simp [endsComment]
  simp only [commentRest, hup]
  rfl

/-- Behind a `<!`, what starts no comment is a declaration. -/
theorem token_bang {rest : List Char} (hdash : ¬ ['-', '-'] <+: rest) :
    token ('<' :: '!' :: rest) = declarationRest rest := by
  have hcomment : ∀ behind, rest ≠ '-' :: '-' :: behind := by
    rintro behind rfl
    exact hdash ⟨behind, rfl⟩
  unfold token
  split
  · -- a comment
    rename_i behind heq
    simp only [List.cons.injEq, true_and] at heq
    exact absurd heq (hcomment behind)
  · rename_i heq
    simp only [List.cons.injEq, true_and] at heq
    rw [heq]
  · rename_i heq
    simp at heq
  · rename_i heq
    simp at heq
  · rename_i hbang _ _ heq
    simp only [List.cons.injEq, true_and] at heq
    exact absurd heq.symm (hbang _)
  · rename_i hless
    exact absurd rfl (hless _)

/-- The rest of a declaration is what stands up to its `>`. -/
theorem declarationRest_eq_some_iff {cs rest : List Char} {piece : Token} :
    declarationRest cs = some (piece, rest) ↔
      piece = .skipped ∧ ∃ d, (∀ c ∈ d, c ≠ '>') ∧ cs = d ++ '>' :: rest := by
  rw [declarationRest, mapValue_eq_some_iff]
  constructor
  · rintro ⟨d, hd, rfl⟩
    obtain ⟨rfl, hfree⟩ := before_eq_some_iff.1 hd
    exact ⟨rfl, d, hfree, rfl⟩
  · rintro ⟨rfl, d, hfree, rfl⟩
    exact ⟨d, before_eq_some_iff.2 ⟨rfl, hfree⟩, rfl⟩

/-- A `>` does not make dashes of what does not start with them. -/
theorem not_dashes_append {d : List Char} (hdash : ¬ ['-', '-'] <+: d) (t : List Char) :
    ¬ ['-', '-'] <+: d ++ '>' :: t := by
  rcases d with _ | ⟨x, _ | ⟨y, d⟩⟩
  · simp
  · simp
  · simpa using hdash

/-- A declaration that is no comment is read up to its `>`. -/
theorem token_declaration {d : List Char} (hd : ∀ c ∈ d, c ≠ '>') (hdash : ¬ ['-', '-'] <+: d)
    (t : List Char) : token ('<' :: '!' :: (d ++ '>' :: t)) = some (.skipped, t) := by
  rw [token_bang (not_dashes_append hdash t)]
  exact declarationRest_eq_some_iff.2 ⟨rfl, d, hd, rfl⟩

/-- A piece that changes no tree in which elements of these names are open. -/
def SaysNothing (opened : List String) (piece : Token) : Prop :=
  piece = .skipped ∨ ∃ name, piece = .closing name ∧ ∀ n ∈ opened, sameName n name = false

/-- Noise is read as a piece that says nothing. -/
theorem token_noise {opened : List String} {n : List Char} (h : Noise opened n) (t : List Char) :
    ∃ piece, token (n ++ t) = some (piece, t) ∧ SaysNothing opened piece := by
  cases h with
  | comment hc =>
    refine ⟨.skipped, ?_, .inl rfl⟩
    simp only [List.cons_append, List.append_assoc, List.nil_append]
    exact commentRest_append hc t
  | declaration hd hdash =>
    refine ⟨.skipped, ?_, .inl rfl⟩
    simp only [List.cons_append, List.append_assoc, List.nil_append]
    exact token_declaration hd hdash t
  | instruction hd =>
    refine ⟨.skipped, ?_, .inl rfl⟩
    simp only [List.cons_append, List.append_assoc, List.nil_append]
    exact declarationRest_eq_some_iff.2 ⟨rfl, _, hd, rfl⟩
  | @closing name hname hother =>
    refine ⟨.closing name, ?_, .inr ⟨name, rfl, hother⟩⟩
    exact token_closing hname t

/-! ## Elements -/

/-- Behind a `<`, a letter starts an element. -/
theorem token_letter {c : Char} (hc : c.isAlpha = true) (t : List Char) :
    token ('<' :: c :: t) = elementStart ('<' :: c :: t) := by
  have hne : c ≠ '!' ∧ c ≠ '?' ∧ c ≠ '/' := by
    refine ⟨?_, ?_, ?_⟩
    all_goals
      rintro rfl
      exact absurd hc (by decide)
  simp [token, hne, hc]

/-- A written opening tag starts an element. -/
theorem token_opening {name : String} (hname : IsName name) (attributes : List Attribute)
    (t : List Char) : token (writtenOpening name attributes ++ t) =
      elementStart (writtenOpening name attributes ++ t) := by
  obtain ⟨c, cs, hcs, halpha, -⟩ := hname
  simp only [writtenOpening, hcs, List.cons_append]
  exact token_letter halpha _

/-- No raw text element is void. -/
theorem isVoid_of_isRawText {name : String} (h : isRawText name = true) : isVoid name = false := by
  have hfold : foldCase name = foldCase "script" ∨ foldCase name = foldCase "style" := by
    simpa [isRawText, rawTextNames, sameName] using h
  rw [show isVoid name = voidNames.any fun void => foldCase name == foldCase void from rfl]
  rcases hfold with hfold | hfold
  · rw [hfold]
    decide
  · rw [hfold]
    decide

section

variable {name : String} {attributes : List Attribute} (hname : IsName name)
  (hattributes : ∀ a ∈ attributes, a.Writable)

include hname hattributes

/-- A void element is read as it is written. -/
theorem token_void (hvoid : isVoid name = true) (t : List Char) :
    token (writtenOpening name attributes ++ t) = some (.whole ⟨name, attributes, []⟩, t) := by
  rw [token_opening hname, elementStart]
  simp only [openingTag_written hname hattributes, hvoid, Bool.or_true, if_true]

/-- Of any other element the opening tag is read. -/
theorem token_element (hvoid : isVoid name = false) (hkind : isRawText name = false)
    (t : List Char) :
    token (writtenOpening name attributes ++ t) = some (.opening name attributes, t) := by
  rw [token_opening hname, elementStart]
  simp [openingTag_written hname hattributes, hvoid, hkind]

end

/-! ## Plain text -/

/-- Text is read up to the next `<`. -/
theorem token_plain {c : Char} (hc : c ≠ '<') (t : List Char) :
    token (c :: t) = some (.text (String.ofList (c :: t.takeWhile (· != '<'))),
      t.dropWhile (· != '<')) := by
  have hrun : run (· != '<') (c :: t) =
      some (c :: t.takeWhile (· != '<'), t.dropWhile (· != '<')) := by
    simp [run, hc]
  have hplain : token (c :: t) = plainText (c :: t) := by
    unfold token
    split
    case h_6 => rfl
    all_goals simp_all
  rw [hplain]
  exact mapValue_eq_some_iff.2 ⟨_, hrun, rfl⟩

/-- A `<` that starts nothing is a text, as is the `</` that it may belong to. -/
theorem token_less {follow : List Char} (h : StartsNothing follow) :
    token ('<' :: follow) = some (.text "<", follow) ∨
      ∃ t, follow = '/' :: t ∧ token ('<' :: follow) = some (.text "</", t) := by
  have hclose := closingTag_eq_none h
  cases follow with
  | nil => exact .inl rfl
  | cons c t =>
    obtain ⟨halpha, hbang, hask⟩ := h.head c rfl
    by_cases hslash : c = '/'
    · subst hslash
      exact .inr ⟨t, rfl, by simp only [token, hclose]⟩
    · left
      simp [token, halpha, hbang, hask, hslash]

end MarkupQuery.Markup

import MarkupQuery.Proofs.Markup.UnreadText
import MarkupQuery.Proofs.Text.Continuation

/-!
# MarkupQuery.Proofs.Markup.TrailingTags — closing tags behind a document change nothing

A text that is read to its end may be followed by any closing tags: it is still read to its end,
and the document is the same (`document_closings`).

There are two sides to this. The pieces of the text have to stay what they are, although an
opening tag may have a quote in it that is not closed, and the text may end in the middle of what
could become a closing tag. Tags hold no quotes, and the `<` they start with belongs to nothing
that is begun before it (`token_append`). And the elements that the tags close are those that
are open at the end of the text, where they are closed anyway (`finish_leave`).
-/

namespace MarkupQuery.Markup

open Reader

/-! ## Opening tags in front of more text -/

section OpeningTags

variable {more : List Char} (hdouble : '"' ∉ more) (hsingle : '\'' ∉ more)

include hdouble hsingle

/-- A quote that is not closed in front of the end of a tag is not closed behind it. -/
theorem attributeValue_ignoresMore : IgnoresMore '>' more attributeValue := by
  have hrun := run_ignoresRest isBareValueChar
  rw [attributeValue_eq]
  apply either_ignoresMore (behindChar_ignoresMore _ (before_ignoresMore _))
    (behindChar_failsWithMore (by decide) (before_failsWithMore hdouble))
  · apply either_ignoresMore (behindChar_ignoresMore _ (before_ignoresMore _))
      (behindChar_failsWithMore (by decide) (before_failsWithMore hsingle))
    · exact run_ignoresMore isBareValueChar
    · exact hrun
  · apply either_ignoresRest (behindChar_ignoresRest _ (before_ignoresRest _))
      (behindChar_failsOnFronts _ (before_failsOnFronts _)) hrun

theorem attributeValue_failsWithMore : FailsWithMore '>' more attributeValue := by
  rw [attributeValue_eq]
  apply either_failsWithMore
    (behindChar_failsWithMore (by decide) (before_failsWithMore hdouble))
  apply either_failsWithMore
    (behindChar_failsWithMore (by decide) (before_failsWithMore hsingle))
  exact run_failsWithMore isBareValueChar

theorem assignedValue_ignoresMore : IgnoresMore '>' more assignedValue := by
  have hvalue := behindBlanks_ignoresMore (by decide)
    (attributeValue_ignoresMore hdouble hsingle) attributeValue_ignoresRest
  rw [assignedValue_eq]
  apply behindBlanks_ignoresMore (by decide) (behindChar_ignoresMore _ hvalue)
  apply behindChar_ignoresRest
  exact behindBlanks_ignoresRest attributeValue_ignoresRest

theorem assignedValue_failsWithMore : FailsWithMore '>' more assignedValue := by
  rw [assignedValue_eq]
  apply behindBlanks_failsWithMore (by decide)
  apply behindChar_failsWithMore (by decide)
  exact behindBlanks_failsWithMore (by decide) (attributeValue_failsWithMore hdouble hsingle)

theorem nextAttribute_ignoresMore : IgnoresMore '>' more nextAttribute := by
  have hrest := orNothing_ignoresRest assignedValue_ignoresRest assignedValue_failsOnFronts
  have hvalue := orNothing_ignoresMore (assignedValue_ignoresMore hdouble hsingle)
    (assignedValue_failsWithMore hdouble hsingle)
  have hkeyValue : IgnoresMore '>' more keyValue := by
    rw [keyValue_eq]
    exact mapValue_ignoresMore _ (andThen_ignoresMore (run_ignoresMore isKeyChar) hvalue hrest)
  exact behindBlanks_ignoresMore (by decide) hkeyValue keyValue_ignoresRest

omit hdouble hsingle in
theorem nextAttribute_failsWithMore : FailsWithMore '>' more nextAttribute := by
  have hkeyValue : FailsWithMore '>' more keyValue := by
    rw [keyValue_eq]
    apply mapValue_failsWithMore
    exact andThen_failsWithMore (run_failsWithMore isKeyChar) (orNothing_ne_none assignedValue)
  exact behindBlanks_failsWithMore (by decide) hkeyValue

theorem attributes_ignoresMore :
    IgnoresMore '>' more (repeated nextAttribute nextAttribute_consumes) :=
  repeated_ignoresMore nextAttribute_consumes (nextAttribute_ignoresMore hdouble hsingle)
    nextAttribute_failsWithMore nextAttribute_ignoresRest

omit hdouble hsingle in
theorem tagName_ignoresMore : IgnoresMore '>' more tagName := by
  intro cs name rest h hstop
  have hends := not_isNameChar_of_tagName h
  obtain ⟨hname, rfl⟩ := isName_of_tagName h
  rw [List.append_assoc]
  apply tagName_append hname
  rwa [head?_append_of_mem hstop]

omit hdouble hsingle in
/-- The end of a tag holds a `>`. -/
theorem mem_of_tagEnd {cs rest : List Char} {closes : Bool}
    (h : tagEnd cs = some (closes, rest)) : '>' ∈ cs := by
  unfold tagEnd at h
  split at h
  · simp
  · simp
  · simp at h

/-- All that is read of an opening tag in front of its `>` leaves that `>`. -/
theorem openingTag_append {cs rest : List Char} {tag : OpeningTag}
    (h : openingTag cs = some (tag, rest)) : openingTag (cs ++ more) = some (tag, rest ++ more) := by
  obtain ⟨t, behind, last, rfl, hname, hattributes, hend⟩ := openingTag_eq_some_iff.1 h
  have hlast : '>' ∈ last := (skipBlanks_suffix last).subset (mem_of_tagEnd hend)
  have hbehind : '>' ∈ behind := attributes_ignoresRest.mem hattributes hlast
  have hskip := (skipBlanks_append_of_mem (by decide) hlast more).1
  refine openingTag_eq_some_iff.2 ⟨t ++ more, behind ++ more, last ++ more, rfl, ?_, ?_, ?_⟩
  · exact tagName_ignoresMore _ _ _ hname hbehind
  · exact attributes_ignoresMore hdouble hsingle _ _ _ hattributes hlast
  · rw [hskip]
    exact tagEnd_endsItself.append hend more

theorem elementStart_append {cs rest : List Char} {piece : Token}
    (h : elementStart cs = some (piece, rest)) :
    elementStart (cs ++ more) = some (piece, rest ++ more) := by
  obtain ⟨tag, behind, htag, hrest⟩ := elementStart_eq_some_iff.1 h
  have hname : IsName tag.name := (openingTag_wellShaped htag).1
  have htag' := openingTag_append hdouble hsingle htag
  have hrest' := (elementRest_endsItself hname).append hrest more
  exact elementStart_eq_some_iff.2 ⟨tag, behind ++ more, htag', hrest'⟩

end OpeningTags

/-! ## Pieces in front of tags -/

/-- A `</` that starts no closing tag starts none either if a `<` follows before it is
completed. -/
theorem closingTag_append_eq_none {t more : List Char} (hmore : ∀ c ∈ more.head?, c = '<')
    (h : closingTag ('<' :: '/' :: t) = none) : closingTag ('<' :: '/' :: (t ++ more)) = none := by
  cases more with
  | nil => rwa [List.append_nil]
  | cons c more =>
    obtain rfl : c = '<' := hmore c rfl
    cases hread : closingTag ('<' :: '/' :: (t ++ '<' :: more)) with
    | none => rfl
    | some answer =>
      obtain ⟨name, rest⟩ := answer
      obtain ⟨hname, blanks, hblanks, hcs⟩ := closingTag_eq_some_iff.1 hread
      have hless : '<' ∉ name.toList := fun hmem =>
        absurd (isNameChar_of_mem hname hmem) (by decide)
      have hblank : '<' ∉ blanks := fun hmem => absurd (hblanks _ hmem) (by decide)
      have hbody : '<' ∉ '/' :: (name.toList ++ (blanks ++ ['>'])) := by simp [hless, hblank]
      -- so the closing tag lies in front of the `<` that follows
      have hplace : [] ++ '<' :: ('/' :: (name.toList ++ (blanks ++ ['>'])) ++ rest) =
          ('<' :: '/' :: t) ++ '<' :: more := by
        simpa using hcs.symm
      obtain ⟨after, hfront⟩ := eq_append_of_lt hplace hbody (by simp)
      have hearlier : closingTag ('<' :: '/' :: t) = some (name, after) :=
        closingTag_eq_some_iff.2 ⟨hname, blanks, hblanks, by simpa using hfront⟩
      rw [h] at hearlier
      simp at hearlier

section

variable {more : List Char} (hdouble : '"' ∉ more) (hsingle : '\'' ∉ more)
  (hmore : ∀ c ∈ more.head?, c = '<')

include hdouble hsingle hmore

/-- A piece stays what it is where a `<` follows, or nothing, and no quotes behind that. -/
theorem token_append {cs rest : List Char} {piece : Token} (h : token cs = some (piece, rest)) :
    token (cs ++ more) = some (piece, rest ++ more) := by
  rw [token_eq_some_iff]
  cases token_eq_some_iff.1 h with
  | comment hc =>
    simpa using StartsPiece.comment hc
  | declaration hd hdash =>
    simpa using StartsPiece.declaration hd hdash
  | instruction hd =>
    simpa using StartsPiece.instruction hd
  | closing hclose => exact .closing (closingTag_endsItself.append hclose more)
  | slash hnone => exact .slash (closingTag_append_eq_none hmore hnone)
  | element hstart => exact .element (elementStart_append hdouble hsingle hstart)
  | less hno =>
    refine .less fun c hc => ?_
    cases rest with
    | nil =>
      obtain rfl : c = '<' := hmore c hc
      decide
    | cons d rest => exact hno c hc
  | text hrun =>
    obtain ⟨hne, htaken, hrest, rfl⟩ := run_eq_some_iff_append.1 hrun
    refine .text ?_
    rw [List.append_assoc]
    apply run_append hne htaken
    cases rest with
    | nil =>
      intro c hc
      simp [hmore c hc]
    | cons d rest => exact hrest

theorem takes_append {cs rest : List Char} {ts : List Token} (h : Takes token cs ts rest) :
    Takes token (cs ++ more) ts (rest ++ more) := by
  induction h with
  | nil => exact .nil
  | cons hread _ ih => exact .cons (token_append hdouble hsingle hmore hread) ih

end

/-! ## Closing what is open -/

/-- What is open at the end of a text is closed there, so it may be closed before. -/
theorem GrowingTree.finish_leave (t : GrowingTree) (name : String) :
    (t.leave name).finish = t.finish := by
  unfold leave
  split
  · rfl
  · exact finish_closeMany _ t

theorem GrowingTree.finish_foldl_closings (names : List String) (t : GrowingTree) :
    ((names.map Token.closing).foldl step t).finish = t.finish := by
  induction names generalizing t with
  | nil => rfl
  | cons name names ih =>
    rw [List.map_cons, List.foldl_cons, ih]
    exact finish_leave t name

theorem buildTree_append_closings (ts : List Token) (names : List String) :
    buildTree (ts ++ names.map .closing) = buildTree ts := by
  rw [buildTree, List.foldl_append, GrowingTree.finish_foldl_closings, buildTree]

/-! ## Closing tags behind a document -/

section

variable {names : List String} (hnames : ∀ name ∈ names, IsName name)

include hnames

/-- Written closing tags are read one behind the other. -/
theorem takes_closings :
    Takes token (names.flatMap writtenClosing) (names.map .closing) [] := by
  induction names with
  | nil => exact .nil
  | cons name names ih =>
    rw [List.forall_mem_cons] at hnames
    rw [List.flatMap_cons, List.map_cons]
    exact .cons (token_closing hnames.1 _) (ih hnames.2)

/-- Closing tags hold no character that is in no name, but those around the names. -/
theorem not_mem_closings {c : Char} (hc : isNameChar c = false) (hmark : c ∉ ['<', '/', '>']) :
    c ∉ names.flatMap writtenClosing := by
  intro hmem
  obtain ⟨name, hname, hin⟩ := List.mem_flatMap.1 hmem
  have hfree : c ∉ name.toList := by
    intro hc'
    rw [isNameChar_of_mem (hnames name hname) hc'] at hc
    simp at hc
  exact hmark (by simpa [writtenClosing, hfree] using hin)

/-- Whatever closing tags follow a text that is read to its end, it is read to its end with
them, and the document is the same. -/
theorem document_closings {cs : List Char} {d : Document} (h : document cs = (d, [])) :
    document (cs ++ names.flatMap writtenClosing) = (d, []) := by
  obtain ⟨ts, htakes, -, rfl⟩ := document_eq_iff.1 h
  have hless : ∀ c ∈ (names.flatMap writtenClosing).head?, c = '<' := by
    cases names with
    | nil => simp
    | cons name names => simp [writtenClosing]
  have hfront := takes_append (not_mem_closings hnames (by decide) (by decide))
    (not_mem_closings hnames (by decide) (by decide)) hless htakes
  refine document_eq_iff.2 ⟨ts ++ names.map .closing, ?_, .inl rfl, ?_⟩
  · exact hfront.trans (takes_closings hnames)
  · rw [buildTree_append_closings]

end

/-- A quote that is not closed and a `</` at the end of the text; of the tags behind it one closes
two elements, one closes none, and one has its name in another case. -/
theorem document_closings_unclosed :
    let cs := "<p a=\"b>x<q><p></".toList
    let d : Document :=
      ⟨[.element "p" [⟨"a", "\"b"⟩] [.text "x", .element "q" [] [.element "p" [] [.text "</"]]]]⟩
    let names := ["q", "li", "P"]
    document cs = (d, []) ∧ (∀ name ∈ names, IsName name) ∧
      document (cs ++ names.flatMap writtenClosing) = (d, []) := by
  intro cs d names
  have hread : document cs = (d, []) := by decide +kernel
  have hnames : ∀ name ∈ names, IsName name := by
    intro name hname
    rw [isName_iff]
    revert name
    decide +kernel
  exact ⟨hread, hnames, document_closings hnames hread⟩

end MarkupQuery.Markup

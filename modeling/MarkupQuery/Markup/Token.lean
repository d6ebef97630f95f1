import MarkupQuery.Markup.Tag

/-!
# MarkupQuery.Markup.Token — the pieces of markup

Markup is read piece by piece, before anything is nested. Each `<` decides by what
follows it which piece it starts:

* `<!--` a comment, `<!` and `<?` a declaration: both say nothing about the document;
* `</` a closing tag, and plain text where no closing tag can be read;
* `<` and an ASCII letter an opening tag, or a whole element where that element cannot
  hold markup;
* any other `<` is plain text.

A piece that is started but not completed is no piece, and reading stops before it.
-/

namespace MarkupQuery.Markup

open Reader

/-- A piece of markup. -/
inductive Token where
  /-- an opening tag, whose contents follow -/
  | opening (name : String) (attributes : List Attribute)
  /-- a closing tag -/
  | closing (name : String)
  /-- an element that is complete with what was read of it -/
  | whole (element : Element)
  /-- plain text -/
  | text (content : String)
  /-- a comment or a declaration -/
  | skipped
deriving DecidableEq

/-! ## Raw text -/

/-- The text starts with `</name`, in any case. -/
def startsEndTag (name : String) : List Char → Bool
  | '<' :: '/' :: cs =>
    (cs.take name.length).map Char.toLower == foldCase name
  | _ => false

/-- What a raw text element holds: one text, or nothing. -/
def rawContents (raw : List Char) : List Node :=
  if raw.isEmpty then [] else [.text (String.ofList raw)]

/-- The rest of a raw text element whose opening tag is read: everything up to the first
`</name`, which has to be a closing tag of that name. -/
def rawElement (tag : OpeningTag) : Reader Token := fun cs =>
  match upTo (startsEndTag tag.name) cs with
  | none => none
  | some (raw, cs) =>
    match closingTag cs with
    | none => none
    | some (name, rest) =>
      if sameName name tag.name then
        some (.whole ⟨tag.name, tag.attributes, rawContents raw⟩, rest)
      else none

/-- An opening tag, and with it the whole element if it cannot hold markup. -/
def elementStart : Reader Token := fun cs =>
  match openingTag cs with
  | none => none
  | some (tag, rest) =>
    if tag.selfClosing || isVoid tag.name then
      some (.whole ⟨tag.name, tag.attributes, []⟩, rest)
    else if isRawText tag.name then rawElement tag rest
    else some (.opening tag.name tag.attributes, rest)

/-! ## Skipped markup and text -/

/-- The `-->` that ends a comment stands here. -/
def endsComment (cs : List Char) : Bool :=
  ['-', '-', '>'].isPrefixOf cs

/-- The rest of a comment, behind its `<!--`. -/
def commentRest : Reader Token := fun cs =>
  match upTo endsComment cs with
  | none => none
  | some (_, rest) => some (.skipped, rest.drop 3)

/-- The rest of a declaration, behind its `<!` or `<?`. -/
def declarationRest : Reader Token :=
  mapValue (fun _ => .skipped) (before '>')

/-- Plain text up to the next `<`. -/
def plainText : Reader Token :=
  mapValue (fun content => .text (String.ofList content)) (run (· != '<'))

/-! ## One piece -/

/-- The piece at the front of a text. -/
def token : Reader Token := fun cs =>
  match cs with
  | '<' :: '!' :: '-' :: '-' :: rest => commentRest rest
  | '<' :: '!' :: rest => declarationRest rest
  | '<' :: '?' :: rest => declarationRest rest
  | '<' :: '/' :: rest =>
    match closingTag cs with
    | some (name, rest) => some (.closing name, rest)
    | none => some (.text "</", rest)
  | '<' :: rest =>
    if rest.head?.any Char.isAlpha then elementStart cs else some (.text "<", rest)
  | _ => plainText cs

/-- Raw text is followed by the closing tag it stops at. -/
theorem rawElement_consumes (tag : OpeningTag) : Consumes (rawElement tag) := by
  intro cs t rest h
  unfold rawElement at h
  split at h
  · simp at h
  · rename_i raw tail hraw
    have hcs := eq_append_of_upTo hraw
    split at h
    · simp at h
    · rename_i name tail' hclose
      have hc := closingTag_consumes _ _ _ hclose
      split at h
      · simp only [Option.some.injEq, Prod.mk.injEq] at h
        rcases h with ⟨-, rfl⟩
        have ht : tail <:+ cs := ⟨raw, hcs.symm⟩
        exact ⟨hc.1.trans ht, Nat.lt_of_lt_of_le hc.2 ht.length_le⟩
      · simp at h

/-- An element start has at least its opening tag. -/
theorem elementStart_consumes : Consumes elementStart := by
  intro cs t rest h
  unfold elementStart at h
  split at h
  · simp at h
  · rename_i tag tail htag
    have ht := openingTag_consumes _ _ _ htag
    split at h
    · simp only [Option.some.injEq, Prod.mk.injEq] at h
      rcases h with ⟨-, rfl⟩
      exact ht
    · split at h
      · have hr := rawElement_consumes tag _ _ _ h
        exact ⟨hr.1.trans ht.1, Nat.lt_trans hr.2 ht.2⟩
      · simp only [Option.some.injEq, Prod.mk.injEq] at h
        rcases h with ⟨-, rfl⟩
        exact ht

/-- A comment leaves a tail of its text. -/
theorem commentRest_suffix {cs rest : List Char} {t : Token}
    (h : commentRest cs = some (t, rest)) : rest <:+ cs := by
  unfold commentRest at h
  split at h
  · simp at h
  · rename_i passed tail hup
    simp only [Option.some.injEq, Prod.mk.injEq] at h
    rcases h with ⟨-, rfl⟩
    exact (List.drop_suffix 3 tail).trans ⟨passed, (eq_append_of_upTo hup).symm⟩

/-- A declaration has at least its `>`. -/
theorem declarationRest_consumes : Consumes declarationRest :=
  mapValue_consumes _ (before_consumes '>')

/-- Plain text has at least one character. -/
theorem plainText_consumes : Consumes plainText :=
  mapValue_consumes _ (run_consumes _)

/-- Every piece has at least one character. -/
theorem token_consumes : Consumes token := by
  intro cs t rest h
  unfold token at h
  split at h
  · -- A comment
    have hs := commentRest_suffix h
    exact leaves_behind (leaves_behind (leaves_behind (leaves_behind hs).1).1).1
  · -- A declaration
    exact leaves_behind (leaves_behind (declarationRest_consumes _ _ _ h).1).1
  · -- A declaration with a question mark
    exact leaves_behind (leaves_behind (declarationRest_consumes _ _ _ h).1).1
  · -- A closing tag, or the text it starts with
    split at h
    · rename_i name tail hclose
      simp only [Option.some.injEq, Prod.mk.injEq] at h
      rcases h with ⟨-, rfl⟩
      exact closingTag_consumes _ _ _ hclose
    · simp only [Option.some.injEq, Prod.mk.injEq] at h
      rcases h with ⟨-, rfl⟩
      exact leaves_behind (List.suffix_cons _ _)
  · -- An opening tag, or a `<` on its own
    split at h
    · exact elementStart_consumes _ _ _ h
    · simp only [Option.some.injEq, Prod.mk.injEq] at h
      rcases h with ⟨-, rfl⟩
      exact leaves_behind (List.suffix_refl _)
  · -- Text
    exact plainText_consumes _ _ _ h

/-- All the pieces that can be read one behind the other, and the text left. -/
def tokens (cs : List Char) : List Token × List Char :=
  many token token_consumes cs

end MarkupQuery.Markup

import MarkupQuery.Proofs.Markup.Pieces
import MarkupQuery.Proofs.Text.Truncation

/-!
# MarkupQuery.Proofs.Markup.Alternatives — a piece is what the first of six readers reads

The kinds of pieces can be tried one behind the other: a comment, a declaration, a closing tag,
an element, plain text, and a `<` or `</` that is text since it starts nothing else. Reading
decides by the characters behind a `<` instead, and takes what the first reader of these six
takes that takes anything (`token_eq_findSome?`).

All but one of the readers look for a `<`, and still no two of them take different pieces from
one text: a declaration gives way to a comment, a stray `</` to a closing tag, and a stray `<`
to whatever may start with the character behind it, also where that is not completed. So the
readers take what starts a text, and at a dead end nothing (`exists_pieceReader_iff`,
`forall_pieceReader_iff`), and their order does not matter (`token_eq_findSome?_of_perm`).
-/

namespace MarkupQuery.Markup

open Reader

variable {cs rest : List Char} {piece : Token}

/-! ## The readers -/

/-- A comment. -/
def comment : Reader Token
  | '<' :: '!' :: '-' :: '-' :: rest => commentRest rest
  | _ => none

/-- A declaration, where no comment starts. -/
def declaration : Reader Token := fun cs =>
  if ['<', '!', '-', '-'].isPrefixOf cs then none
  else match cs with
    | '<' :: '!' :: rest => declarationRest rest
    | '<' :: '?' :: rest => declarationRest rest
    | _ => none

/-- A `<` in front of nothing that may start markup. -/
def strayLess : Reader Token
  | '<' :: rest =>
    if rest.head?.any fun c => c.isAlpha || c == '/' || c == '!' || c == '?' then none
    else some (.text "<", rest)
  | _ => none

/-- A `</` that starts no closing tag. -/
def straySlash : Reader Token
  | '<' :: '/' :: rest =>
    if (closingTag ('<' :: '/' :: rest)).isSome then none else some (.text "</", rest)
  | _ => none

/-- The readers of pieces in the order in which they are tried. -/
def pieceReaders : List (Reader Token) :=
  [comment, declaration, mapValue .closing closingTag, elementStart, plainText,
    either strayLess straySlash]

/-! ## What they read -/

theorem startsPiece_of_comment (h : comment cs = some (piece, rest)) :
    StartsPiece cs piece rest := by
  unfold comment at h
  split at h
  · obtain ⟨rfl, c, hc, rfl⟩ := commentRest_eq_some_iff.1 h
    exact .comment hc
  · simp at h

theorem startsPiece_of_declaration (h : declaration cs = some (piece, rest)) :
    StartsPiece cs piece rest := by
  unfold declaration at h
  split at h
  · simp at h
  · rename_i hcomment
    split at h
    · obtain ⟨rfl, d, hd, rfl⟩ := declarationRest_eq_some_iff.1 h
      refine .declaration hd ?_
      rintro ⟨more, rfl⟩
      simp at hcomment
    · obtain ⟨rfl, d, hd, rfl⟩ := declarationRest_eq_some_iff.1 h
      exact .instruction hd
    · simp at h

theorem strayLess_eq_some_iff : strayLess cs = some (piece, rest) ↔ piece = .text "<" ∧
    cs = '<' :: rest ∧ ∀ c ∈ rest.head?, c.isAlpha = false ∧ c ≠ '!' ∧ c ≠ '?' ∧ c ≠ '/' := by
  constructor
  · intro h
    unfold strayLess at h
    split at h
    · split at h
      · simp at h
      · rename_i hno
        simp only [Option.some.injEq, Prod.mk.injEq] at h
        obtain ⟨rfl, rfl⟩ := h
        refine ⟨rfl, rfl, fun c hc => ?_⟩
        rw [Option.mem_def] at hc
        simp only [hc, Option.any_some, Bool.or_eq_true, beq_iff_eq, not_or,
          Bool.not_eq_true] at hno
        obtain ⟨⟨⟨halpha, hslash⟩, hbang⟩, hask⟩ := hno
        exact ⟨halpha, hbang, hask, hslash⟩
    · simp at h
  · rintro ⟨rfl, rfl, hno⟩
    rw [strayLess, if_neg]
    intro hany
    obtain ⟨c, hc, hstarts⟩ := (Option.any_eq_true _ _).1 hany
    simp [hno c hc] at hstarts

theorem straySlash_eq_some_iff : straySlash cs = some (piece, rest) ↔ piece = .text "</" ∧
    cs = '<' :: '/' :: rest ∧ closingTag ('<' :: '/' :: rest) = none := by
  constructor
  · intro h
    unfold straySlash at h
    split at h
    · split at h
      · simp at h
      · rename_i hno
        simp only [Option.some.injEq, Prod.mk.injEq] at h
        obtain ⟨rfl, rfl⟩ := h
        exact ⟨rfl, rfl, Option.not_isSome_iff_eq_none.1 hno⟩
    · simp at h
  · rintro ⟨rfl, rfl, hnone⟩
    simp [straySlash, hnone]

/-- What one of the readers reads is the piece that the text starts with. -/
theorem startsPiece_of_pieceReader {read : Reader Token} (hmem : read ∈ pieceReaders)
    (h : read cs = some (piece, rest)) : StartsPiece cs piece rest := by
  simp only [pieceReaders, List.mem_cons, List.not_mem_nil, or_false] at hmem
  rcases hmem with rfl | rfl | rfl | rfl | rfl | rfl
  · exact startsPiece_of_comment h
  · exact startsPiece_of_declaration h
  · obtain ⟨name, hname, rfl⟩ := mapValue_eq_some_iff.1 h
    exact .closing hname
  · exact .element h
  · obtain ⟨content, hrun, rfl⟩ := mapValue_eq_some_iff.1 h
    exact .text hrun
  · rcases Option.or_eq_some_iff.1 h with hless | ⟨-, hslash⟩
    · obtain ⟨rfl, rfl, hno⟩ := strayLess_eq_some_iff.1 hless
      exact .less hno
    · obtain ⟨rfl, rfl, hnone⟩ := straySlash_eq_some_iff.1 hslash
      exact .slash hnone

/-- The piece that a text starts with is read by one of the readers. -/
theorem exists_pieceReader_of_startsPiece (h : StartsPiece cs piece rest) :
    ∃ read ∈ pieceReaders, read cs = some (piece, rest) := by
  cases h with
  | comment hc =>
    exact ⟨comment, by simp [pieceReaders], commentRest_eq_some_iff.2 ⟨rfl, _, hc, rfl⟩⟩
  | declaration hd hdash =>
    refine ⟨declaration, by simp [pieceReaders], ?_⟩
    rw [declaration, if_neg]
    · exact declarationRest_eq_some_iff.2 ⟨rfl, _, hd, rfl⟩
    · simp [not_dashes_append hdash]
  | instruction hd =>
    exact ⟨declaration, by simp [pieceReaders], declarationRest_eq_some_iff.2 ⟨rfl, _, hd, rfl⟩⟩
  | closing hclose =>
    exact ⟨mapValue .closing closingTag, by simp [pieceReaders],
      mapValue_eq_some_iff.2 ⟨_, hclose, rfl⟩⟩
  | @slash rest hnone =>
    have hless : strayLess ('<' :: '/' :: rest) = none := rfl
    have hslash := straySlash_eq_some_iff.2 ⟨rfl, rfl, hnone⟩
    exact ⟨either strayLess straySlash, by simp [pieceReaders],
      Option.or_eq_some_iff.2 (.inr ⟨hless, hslash⟩)⟩
  | element hstart => exact ⟨elementStart, by simp [pieceReaders], hstart⟩
  | less hno =>
    have hless := strayLess_eq_some_iff.2 ⟨rfl, rfl, hno⟩
    exact ⟨either strayLess straySlash, by simp [pieceReaders],
      Option.or_eq_some_iff.2 (.inl hless)⟩
  | text hrun =>
    exact ⟨plainText, by simp [pieceReaders], mapValue_eq_some_iff.2 ⟨_, hrun, rfl⟩⟩

/-- Whichever of the readers reads something, it reads the piece that the text starts with. -/
theorem exists_pieceReader_iff :
    (∃ read ∈ pieceReaders, read cs = some (piece, rest)) ↔ token cs = some (piece, rest) := by
  rw [token_eq_some_iff]
  constructor
  · rintro ⟨read, hmem, h⟩
    exact startsPiece_of_pieceReader hmem h
  · exact exists_pieceReader_of_startsPiece

/-- Where no piece is read, none of the readers reads anything. -/
theorem forall_pieceReader_iff : (∀ read ∈ pieceReaders, read cs = none) ↔ token cs = none := by
  constructor
  · intro hnone
    cases htoken : token cs with
    | none => rfl
    | some answer =>
      obtain ⟨read, hmem, hsome⟩ := exists_pieceReader_iff.2 htoken
      rw [hnone read hmem] at hsome
      simp at hsome
  · intro hnone read hmem
    cases hread : read cs with
    | none => rfl
    | some answer =>
      have htoken := exists_pieceReader_iff.1 ⟨read, hmem, hread⟩
      rw [hnone] at htoken
      simp at htoken

/-! ## The order in which they are tried -/

/-- The readers may be tried in any order. -/
theorem token_eq_findSome?_of_perm {order : List (Reader Token)} (h : order.Perm pieceReaders)
    (cs : List Char) : token cs = order.findSome? fun read => read cs := by
  cases hread : order.findSome? fun read => read cs with
  | some answer =>
    obtain ⟨read, hmem, hsome⟩ := List.exists_of_findSome?_eq_some hread
    exact exists_pieceReader_iff.1 ⟨read, h.mem_iff.1 hmem, hsome⟩
  | none =>
    refine forall_pieceReader_iff.1 fun read hmem => ?_
    exact List.findSome?_eq_none_iff.1 hread read (h.mem_iff.2 hmem)

/-- A piece is what the first of the readers reads that reads anything. -/
theorem token_eq_findSome? (cs : List Char) :
    token cs = pieceReaders.findSome? fun read => read cs :=
  token_eq_findSome?_of_perm (.refl pieceReaders) cs

end MarkupQuery.Markup

import MarkupQuery.Markup.Page
import MarkupQuery.Proofs.Markup.Growing
import MarkupQuery.Proofs.Markup.Pieces

/-!
# MarkupQuery.Proofs.Markup.Shape — the shape of every document that is read

Whatever text a document is read from, it is well shaped (`Document.WellShaped`): texts are
not empty and never meet, names are names, void elements are empty, raw text elements hold
at most one text, which does not end them, and keys and values are free of what ends them.

Each piece brings what is needed (`token_wellShaped`). The tree keeps it while it grows: the
invariant holds of the nodes of the innermost open element and of the nodes before each open
element, none of which is void or of raw text (`GrowingTree.WellShaped`).
-/

namespace MarkupQuery

open Markup

/-! ## Well-shaped documents -/

/-- A value is free of its quote, of the other one, or of what ends it without quotes. -/
def ValueFree (value : List Char) : Prop :=
  (∀ c ∈ value, c ≠ '"') ∨ (∀ c ∈ value, c ≠ '\'') ∨
    ∀ c ∈ value, c ∉ [' ', '\t', '\r', '\n', '>']

/-- The key is not empty and free of what ends a key, and so is the value of what ends it. -/
structure Attribute.WellShaped (a : Attribute) : Prop where
  key_ne_nil : a.key.toList ≠ []
  key_free : ∀ c ∈ a.key.toList, c ∉ [' ', '\t', '\r', '\n', '"', '\'', '>', '/', '=']
  value_free : ValueFree a.value.toList

/-- A text that is not empty, or an element whose name and attributes are well shaped and
whose contents are allowed by its name and well shaped themselves. -/
inductive Node.WellShaped : Node → Prop where
  | text {content : String} : content ≠ "" → WellShaped (.text content)
  | element {name : String} {attributes : List Attribute} {contents : List Node} :
      IsName name → (∀ a ∈ attributes, a.WellShaped) → (isVoid name = true → contents = []) →
      (isRawText name = true → IsRaw name contents) →
      (∀ n ∈ contents, n.WellShaped) → TextsApart contents →
      WellShaped (.element name attributes contents)

/-- Well-shaped nodes, with no two texts side by side. -/
structure Node.WellShapedAll (ns : List Node) : Prop where
  each : ∀ n ∈ ns, n.WellShaped
  apart : TextsApart ns

/-- A document is well shaped on every level. -/
def Document.WellShaped (d : Document) : Prop :=
  Node.WellShapedAll d.contents

namespace Markup

open Reader

/-! ## Attributes -/

/-- Every character of a run satisfies its test. -/
theorem mem_of_run {p : Char → Bool} {cs taken rest : List Char}
    (h : run p cs = some (taken, rest)) : taken ≠ [] ∧ ∀ c ∈ taken, p c = true := by
  obtain ⟨hne, rfl, -⟩ := run_eq_some_iff.1 h
  exact ⟨hne, fun c hc => List.mem_takeWhile_imp hc⟩

/-- Without quotes a value holds neither a blank nor the end of its tag. -/
theorem valueFree_of_run {cs value rest : List Char}
    (h : run isBareValueChar cs = some (value, rest)) : ValueFree value := by
  refine .inr (.inr ?_)
  intro c hc
  have hbare := (mem_of_run h).2 c hc
  simp only [isBareValueChar, isBlank] at hbare
  simp_all

/-- A value is free of what it was ended by. -/
theorem valueFree_of_attributeValue {cs value rest : List Char}
    (h : attributeValue cs = some (value, rest)) : ValueFree value := by
  unfold attributeValue at h
  split at h
  · -- in double quotes, or a run that starts with one
    rcases Option.or_eq_some_iff.1 h with h | ⟨-, h⟩
    · exact .inl (before_eq_some_iff.1 h).2
    · exact valueFree_of_run h
  · rcases Option.or_eq_some_iff.1 h with h | ⟨-, h⟩
    · exact .inr (.inl (before_eq_some_iff.1 h).2)
    · exact valueFree_of_run h
  · exact valueFree_of_run h

theorem valueFree_of_assignedValue {cs value rest : List Char}
    (h : assignedValue cs = some (value, rest)) : ValueFree value := by
  unfold assignedValue at h
  split at h
  · exact valueFree_of_attributeValue h
  · simp at h

/-- Attributes are read well shaped. -/
theorem nextAttribute_wellShaped {cs rest : List Char} {a : Attribute}
    (h : nextAttribute cs = some (a, rest)) : a.WellShaped := by
  unfold nextAttribute keyValue at h
  split at h
  · simp at h
  · rename_i key tail hkey
    obtain ⟨hne, hchars⟩ := mem_of_run hkey
    have hfree : ∀ c ∈ key, c ∉ [' ', '\t', '\r', '\n', '"', '\'', '>', '/', '='] := by
      intro c hc
      have hkeyChar := hchars c hc
      simp only [isKeyChar, isBlank] at hkeyChar
      simp_all
    split at h
    · rename_i value _ hvalue
      simp only [Option.some.injEq, Prod.mk.injEq] at h
      obtain ⟨rfl, -⟩ := h
      have hvalueFree := valueFree_of_assignedValue hvalue
      exact ⟨by simpa using hne, by simpa using hfree, by simpa using hvalueFree⟩
    · simp only [Option.some.injEq, Prod.mk.injEq] at h
      obtain ⟨rfl, -⟩ := h
      exact ⟨by simpa using hne, by simpa using hfree, .inl (by simp)⟩

/-! ## Pieces -/

/-- An element that is read as a whole holds nothing, or it holds raw text. -/
structure HoldsNoMarkup (e : Element) : Prop where
  name : IsName e.name
  attributes : ∀ a ∈ e.attributes, a.WellShaped
  contents : e.contents = [] ∨ isRawText e.name = true ∧
    ∃ raw, raw ≠ "" ∧ e.contents = [.text raw] ∧ ¬ HoldsEndTag e.name raw.toList

/-- What a piece brings to a document is well shaped, and an element that is opened may hold
markup. -/
def Token.WellShaped : Token → Prop
  | .opening name attributes =>
    IsName name ∧ (∀ a ∈ attributes, a.WellShaped) ∧ isVoid name = false ∧
      isRawText name = false
  | .whole e => HoldsNoMarkup e
  | .text content => content ≠ ""
  | .closing _ => True
  | .skipped => True

/-- An opening tag has a name and well-shaped attributes. -/
theorem openingTag_wellShaped {cs rest : List Char} {tag : OpeningTag}
    (h : openingTag cs = some (tag, rest)) :
    IsName tag.name ∧ ∀ a ∈ tag.attributes, a.WellShaped := by
  unfold openingTag at h
  split at h
  · split at h
    · simp at h
    · rename_i name tail hname
      have hisName := (isName_of_tagName hname).1
      have hattributes : ∀ a ∈ (many nextAttribute nextAttribute_consumes tail).1,
          a.WellShaped := by
        intro a ha
        obtain ⟨here, behind, hread⟩ := (many_takes _ _ tail).1.exists_read ha
        exact nextAttribute_wellShaped hread
      simp only at h
      split at h
      · simp only [Option.some.injEq, Prod.mk.injEq] at h
        obtain ⟨rfl, -⟩ := h
        exact ⟨hisName, hattributes⟩
      · simp only [Option.some.injEq, Prod.mk.injEq] at h
        obtain ⟨rfl, -⟩ := h
        exact ⟨hisName, hattributes⟩
      · simp at h
  · simp at h

/-- An element is read as a whole or opened. -/
theorem elementStart_wellShaped {cs rest : List Char} {piece : Token}
    (h : elementStart cs = some (piece, rest)) : piece.WellShaped := by
  obtain ⟨tag, tail, htag, hrest⟩ := elementStart_eq_some_iff.1 h
  obtain ⟨hname, hattributes⟩ := openingTag_wellShaped htag
  unfold elementRest at hrest
  split at hrest
  · -- void, or closed by its own tag
    simp only [Option.some.injEq, Prod.mk.injEq] at hrest
    obtain ⟨rfl, -⟩ := hrest
    exact ⟨hname, hattributes, .inl rfl⟩
  · rename_i hholds
    split at hrest
    · -- raw text
      rename_i hkind
      obtain ⟨raw, hends, rfl⟩ := (rawElement_eq_some_iff hname).1 hrest
      refine ⟨hname, hattributes, ?_⟩
      cases hraw : raw with
      | nil => exact .inl rfl
      | cons c raw' =>
        refine .inr ⟨hkind, String.ofList raw, ?_, by simp [rawContents, hraw], ?_⟩
        · simp [hraw]
        · rw [String.toList_ofList]
          exact hends.not_holdsEndTag
    · rename_i hkind
      simp only [Option.some.injEq, Prod.mk.injEq] at hrest
      obtain ⟨rfl, -⟩ := hrest
      have hvoid : isVoid tag.name = false := by
        simp only [Bool.or_eq_true, not_or, Bool.not_eq_true] at hholds
        exact hholds.2
      exact ⟨hname, hattributes, hvoid, by simpa using hkind⟩

/-- Pieces are read well shaped. -/
theorem token_wellShaped {cs rest : List Char} {piece : Token}
    (h : token cs = some (piece, rest)) : piece.WellShaped := by
  cases token_eq_some_iff.1 h with
  | comment _ => trivial
  | declaration _ _ => trivial
  | instruction _ => trivial
  | closing _ => trivial
  | slash _ => simp [Token.WellShaped]
  | element hstart => exact elementStart_wellShaped hstart
  | less _ => simp [Token.WellShaped]
  | text hrun => simpa [Token.WellShaped] using (mem_of_run hrun).1

theorem tokens_wellShaped (cs : List Char) : ∀ piece ∈ (tokens cs).1, piece.WellShaped := by
  intro piece hpiece
  obtain ⟨here, behind, hread⟩ := (many_takes _ _ cs).1.exists_read hpiece
  exact token_wellShaped hread

/-- An element that is read as a whole is a well-shaped node. -/
theorem HoldsNoMarkup.wellShaped {e : Element} (h : HoldsNoMarkup e) : e.toNode.WellShaped := by
  rcases h.contents with hnil | ⟨hkind, raw, hne, hraw, hends⟩
  · refine .element h.name h.attributes (fun _ => hnil) (fun _ => .inl hnil) ?_ ?_
    · simp [hnil]
    · rw [hnil]
      exact List.isChain_nil
  · refine .element h.name h.attributes ?_ (fun _ => .inr ⟨raw, hraw, hends⟩) ?_ ?_
    · -- no raw text element is void
      intro hvoid
      rw [isVoid_of_isRawText hkind] at hvoid
      simp at hvoid
    · rw [hraw]
      simpa using Node.WellShaped.text hne
    · rw [hraw]
      exact List.isChain_singleton _

/-- What a well-shaped piece brings is a well-shaped node. -/
theorem Token.WellShaped.node {piece : Token} (h : piece.WellShaped) {n : Node}
    (hn : piece.node? = some n) : n.WellShaped := by
  rcases Token.node?_eq_some hn with ⟨e, rfl, rfl⟩ | ⟨content, rfl, rfl⟩
  · exact HoldsNoMarkup.wellShaped h
  · exact .text h

/-! ## Growing well shaped -/

/-- An open element may hold markup, and what stands before it is well shaped. -/
structure OpenElement.WellShaped (e : OpenElement) : Prop where
  name : IsName e.name
  attributes : ∀ a ∈ e.attributes, a.WellShaped
  not_void : isVoid e.name = false
  not_raw : isRawText e.name = false
  earlier : Node.WellShapedAll e.earlier

/-- All finished nodes and all open elements are well shaped. -/
structure GrowingTree.WellShaped (t : GrowingTree) : Prop where
  latest : Node.WellShapedAll t.latest
  opened : ∀ e ∈ t.opened, e.WellShaped

theorem wellShapedAll_nil : Node.WellShapedAll [] :=
  ⟨by simp, List.isChain_nil⟩

/-- A node behind others is well shaped with them; a text is joined to a text before it. -/
theorem wellShapedAll_joinNode {n : Node} {latest : List Node} (hn : n.WellShaped)
    (h : Node.WellShapedAll latest) : Node.WellShapedAll (joinNode n latest) := by
  unfold joinNode
  split
  · rename_i content before earlier
    obtain ⟨hside, hearlier⟩ := Node.textsApart_cons.1 h.apart
    refine ⟨?_, Node.textsApart_cons.2 ⟨hside, hearlier⟩⟩
    intro m hm
    rcases List.mem_cons.1 hm with rfl | hm
    · cases hn with
      | text hne => exact .text fun heq => hne (String.append_eq_empty_iff.1 heq).2
    · exact h.each m (List.mem_cons_of_mem _ hm)
  · rename_i hapart
    refine ⟨List.forall_mem_cons.2 ⟨hn, h.each⟩, Node.textsApart_cons.2 ⟨?_, h.apart⟩⟩
    rintro ⟨hnode, hlatest⟩
    cases n with
    | element _ _ _ => exact hnode
    | text content =>
      rcases latest with _ | ⟨m, earlier⟩
      · exact hlatest
      · cases m with
        | element _ _ _ => exact hlatest
        | text before => exact hapart content before earlier rfl rfl

namespace GrowingTree

/-- A closed element is well shaped, since its contents are. -/
theorem WellShaped.close {t : GrowingTree} (h : t.WellShaped) : t.close.WellShaped := by
  unfold GrowingTree.close
  split
  · exact h
  · rename_i e outer hopened
    have he := h.opened e (by simp [hopened])
    have hcontents : ∀ n ∈ t.latest.reverse, n.WellShaped := by
      intro n hn
      exact h.latest.each n (List.mem_reverse.1 hn)
    have hapart := Node.textsApart_reverse.2 h.latest.apart
    have helement : (Node.element e.name e.attributes t.latest.reverse).WellShaped :=
      .element he.name he.attributes (by simp [he.not_void]) (by simp [he.not_raw]) hcontents
        hapart
    refine ⟨⟨List.forall_mem_cons.2 ⟨helement, he.earlier.each⟩, ?_⟩, ?_⟩
    · exact Node.textsApart_cons.2 ⟨fun hside => hside.1, he.earlier.apart⟩
    · intro o ho
      exact h.opened o (by simp [hopened, ho])

/-- Well-shaped pieces grow a well-shaped tree. -/
theorem wellShaped_grown {ts : List Token} (hts : ∀ piece ∈ ts, piece.WellShaped) :
    (grown ts).WellShaped := by
  apply grown_keeps (P := GrowingTree.WellShaped)
  · exact ⟨wellShapedAll_nil, by simp [empty]⟩
  · intro t ht
    exact ht.close
  · -- an element is opened behind the latest nodes
    intro t name attributes hmem _ ht
    obtain ⟨hname, hattributes, hvoid, hraw⟩ := hts _ hmem
    refine ⟨wellShapedAll_nil, List.forall_mem_cons.2 ⟨?_, ht.opened⟩⟩
    exact ⟨hname, hattributes, hvoid, hraw, ht.latest⟩
  · intro t piece n hmem hn _ ht
    exact ⟨wellShapedAll_joinNode ((hts piece hmem).node hn) ht.latest, ht.opened⟩

end GrowingTree

/-- Well-shaped pieces make a well-shaped document. -/
theorem buildTree_wellShaped {ts : List Token} (hts : ∀ piece ∈ ts, piece.WellShaped) :
    (buildTree ts).WellShaped := by
  have hclosed := GrowingTree.closeMany_keeps (P := GrowingTree.WellShaped) (fun _ h => h.close)
    (GrowingTree.grown ts).opened.length (GrowingTree.wellShaped_grown hts)
  refine ⟨?_, Node.textsApart_reverse.2 hclosed.latest.apart⟩
  intro n hn
  exact hclosed.latest.each n (List.mem_reverse.1 hn)

/-- The document at the front of a text is well shaped, whether or not the text is read to its
end. -/
theorem document_wellShaped (cs : List Char) : (document cs).1.WellShaped :=
  buildTree_wellShaped (tokens_wellShaped cs)

end Markup

end MarkupQuery

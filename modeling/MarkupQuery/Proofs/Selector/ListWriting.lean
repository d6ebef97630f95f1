import MarkupQuery.Proofs.Selector.ListReading
import MarkupQuery.Proofs.Selector.SimpleWriting

/-!
# MarkupQuery.Proofs.Selector.ListWriting — which selectors survive being written

Compounds, groups and lists are written back as their parts are (`WritesBack`). Where a
combinator or a comma ends is decided by what stands behind it, so both of them need to know
how a written compound starts, whether it is faithful or not (`Compound.text_endsLink`).

The main result is `reread_rendered_iff`: what is read as a list is read again from the text
that is written for it exactly if all its tokens are faithful.
-/

namespace MarkupQuery.Selector.Grammar

open Reader

/-! ## Written texts -/

/-- The characters of a written group. -/
def groupText (tokens : Group) : List Char :=
  tokens.flatMap tokenText

/-- The characters of a written group behind another. -/
def nextText (tokens : Group) : List Char :=
  ',' :: ' ' :: groupText tokens

/-- A list in selector syntax: its groups with a comma and a space between two of them. -/
def renderGroups (groups : List Group) : String :=
  ", ".intercalate (groups.map renderGroup)

theorem groupText_append (front back : Group) :
    groupText (front ++ back) = groupText front ++ groupText back :=
  List.flatMap_append

theorem groupText_flatten (gs : List Group) : groupText gs.flatten = gs.flatMap groupText := by
  rw [groupText, ← List.flatMap_id, List.flatMap_assoc]
  rfl

theorem toList_renderGroup (g : Group) : (renderGroup g).toList = groupText g := by
  rw [renderGroup, String.toList_join, List.flatMap_map]
  rfl

theorem toList_renderGroups (first : Group) (others : List Group) :
    (renderGroups (first :: others)).toList = groupText first ++ others.flatMap nextText := by
  rw [renderGroups, String.toList_intercalate]
  induction others generalizing first with
  | nil => simp [toList_renderGroup]
  | cons g others ih =>
    have hrest := ih g
    simp only [List.map_cons] at hrest ⊢
    rw [List.intercalate_cons_cons, hrest, toList_renderGroup, List.flatMap_cons]
    simp [nextText]

/-! ## Compounds -/

/-- The front of a compound is written as it is read. -/
theorem Front.text_eq {p : List Char} {tokens : Group} (h : Front p tokens) :
    groupText tokens = p ∧ ∀ t ∈ tokens, Faithful t := by
  cases h with
  | nothing => exact ⟨rfl, by simp⟩
  | tag hid =>
    exact ⟨by simp [groupText, tokenText, Token.render, hid.toList_eq], by simp [Faithful]⟩
  | universal => exact ⟨by simp [groupText, tokenText, Token.render], by simp [Faithful]⟩

/-- Compounds are written back. -/
theorem compound_writesBack :
    WritesBack Compound groupText (fun tokens => ∀ t ∈ tokens, Faithful t) := by
  have hparts := simple_writesBack.repeated
  refine ⟨?_, ?_⟩
  · intro p tokens hp hok
    cases hp with
    | @intro p q front parts hp hq hne =>
      rw [List.forall_mem_append] at hok
      rw [groupText_append, hp.text_eq.1]
      exact .intro hp (hparts.written hq hok.2) hne
  · intro p s tail tokens hp heq
    cases hp with
    | @intro p q front parts hp hq hne =>
      obtain ⟨htext, hfront⟩ := hp.text_eq
      rw [groupText_append, htext, List.append_assoc, List.append_assoc] at heq
      obtain ⟨rfl, hok⟩ := hparts.aligned hq (List.append_cancel_left heq)
      rw [groupText_append, htext, List.forall_mem_append]
      exact ⟨rfl, hfront, hok⟩

/-- A written compound ends the combinator before it, also where it is not faithful. -/
theorem Compound.text_endsLink {p : List Char} {tokens : Group} (h : Compound p tokens)
    (tail : List Char) : EndsLink (groupText tokens ++ tail) := by
  cases h with
  | @intro p q front parts hp hq hne =>
    rw [groupText_append, hp.text_eq.1]
    cases hp with
    | tag hid =>
      obtain ⟨c, r, rfl, hc⟩ := hid.head
      exact endsLink_cons (.inl hc) _
    | universal => exact endsLink_cons (.inr (by decide)) _
    | nothing =>
      cases hq with
      | nil => exact absurd rfl hne
      | @cons _ _ t ts ht _ =>
        obtain ⟨c, r, htext, hc⟩ := ht.text_head
        rw [groupText, List.flatMap_cons, htext]
        refine endsLink_cons (.inr ?_) _
        rcases hc with rfl | rfl | rfl | rfl <;> decide

/-! ## Groups -/

theorem blanks_space : Blanks [' '] := by
  simp [Blanks]

/-- A written combinator is one. -/
theorem link_written (which : Combinator) : Link (tokenText (.combinator which)) which := by
  cases which with
  | descendant => exact .descendant blanks_space (by decide)
  | child => exact .explicit blanks_space .child blanks_space
  | nextSibling => exact .explicit blanks_space .nextSibling blanks_space
  | subsequentSibling => exact .explicit blanks_space .subsequentSibling blanks_space

/-- Compounds behind a combinator are written back. -/
theorem linked_writesBack :
    WritesBack Linked groupText (fun tokens => ∀ t ∈ tokens, Faithful t) := by
  refine ⟨?_, ?_⟩
  · intro p tokens hp hok
    cases hp with
    | @intro p q which tokens hp hq =>
      rw [List.forall_mem_cons] at hok
      exact .intro (link_written which) (compound_writesBack.written hq hok.2)
  · intro p s tail tokens hp heq
    cases hp with
    | @intro p q which tokens hp hq =>
      have hlink : p ++ (q ++ s) =
          tokenText (.combinator which) ++ (groupText tokens ++ tail) := by
        simpa [groupText] using heq
      -- behind both combinators starts a compound, so both end in the same place
      obtain ⟨rfl, hbehind⟩ := combinator_readsLongest.split_unique hp (link_written which)
        (hq.endsLink s) (hq.text_endsLink tail) hlink
      obtain ⟨rfl, hok⟩ := compound_writesBack.aligned hq hbehind
      exact ⟨rfl, List.forall_mem_cons.2 ⟨trivial, hok⟩⟩

/-- Groups are written back. -/
theorem complex_writesBack :
    WritesBack Complex groupText (fun tokens => ∀ t ∈ tokens, Faithful t) := by
  have hlinked := linked_writesBack.repeated
  refine ⟨?_, ?_⟩
  · intro p tokens hp hok
    cases hp with
    | @intro p q first linked hp hq =>
      rw [List.forall_mem_append] at hok
      rw [groupText_append, groupText_flatten]
      refine .intro (compound_writesBack.written hp hok.1) (hlinked.written hq ?_)
      intro g hg t ht
      exact hok.2 t (List.mem_flatten_of_mem hg ht)
  · intro p s tail tokens hp heq
    cases hp with
    | @intro p q first linked hp hq =>
      rw [groupText_append, groupText_flatten] at heq ⊢
      rw [List.append_assoc, List.append_assoc] at heq
      obtain ⟨rfl, hfirst⟩ := compound_writesBack.aligned hp heq
      obtain ⟨rfl, hok⟩ := hlinked.aligned hq (List.append_cancel_left heq)
      refine ⟨rfl, List.forall_mem_append.2 ⟨hfirst, ?_⟩⟩
      intro t ht
      obtain ⟨g, hg, htg⟩ := List.mem_flatten.1 ht
      exact hok g hg t htg

/-- A written group starts with no blank. -/
theorem Complex.text_endsLink {p : List Char} {tokens : Group} (h : Complex p tokens)
    (tail : List Char) : EndsLink (groupText tokens ++ tail) := by
  cases h with
  | intro hp _ =>
    rw [groupText_append, List.append_assoc]
    exact hp.text_endsLink _

/-! ## Lists -/

/-- A written comma is one. -/
theorem comma_written : Comma [',', ' '] () :=
  ⟨[], [' '], rfl, blanks_nil, blanks_space⟩

/-- Groups behind a comma are written back. -/
theorem next_writesBack :
    WritesBack Next nextText (fun tokens => ∀ t ∈ tokens, Faithful t) := by
  refine ⟨?_, ?_⟩
  · intro p tokens hp hok
    cases hp with
    | @intro v w p _ _ _ hp =>
      exact .intro blanks_nil blanks_space (complex_writesBack.written hp hok)
  · intro p s tail tokens hp heq
    cases hp with
    | @intro v w p _ hv hw hp =>
      have hcomma : (v ++ ',' :: w) ++ (p ++ s) = [',', ' '] ++ (groupText tokens ++ tail) := by
        simpa [nextText] using heq
      obtain ⟨hfront, hbehind⟩ := comma_readsLongest.split_unique (a := ()) (b := ())
        ⟨v, w, rfl, hv, hw⟩ comma_written (fun c hc => (hp.endsLink s c hc).1)
        (fun c hc => (hp.text_endsLink tail c hc).1) hcomma
      obtain ⟨rfl, hok⟩ := complex_writesBack.aligned hp hbehind
      refine ⟨?_, hok⟩
      calc v ++ ',' :: (w ++ groupText tokens)
          = (v ++ ',' :: w) ++ groupText tokens := by simp
        _ = nextText tokens := by rw [hfront]; rfl

/-- What is written for a list is a list of the same groups exactly if they are faithful. -/
theorem selectorList_written_iff {p : List Char} {gs : List Group} (h : SelectorList p gs) :
    SelectorList (renderGroups gs).toList gs ↔ ∀ g ∈ gs, ∀ t ∈ g, Faithful t := by
  have hnext := next_writesBack.repeated
  constructor
  · intro hwritten
    generalize htext : (renderGroups gs).toList = text at hwritten
    cases hwritten with
    | @intro v p q w first others hv hp hq hw =>
      rw [toList_renderGroups, ← List.append_nil (groupText first ++ _), List.append_assoc] at htext
      -- no blanks are written in front of the first group
      have hskip := congrArg skipBlanks htext
      have hsolid := hp.text_endsLink (others.flatMap nextText ++ [])
      have hsolid' := hp.endsLink (q ++ w)
      rw [skipBlanks_append hv, skipBlanks_eq_self fun c hc => (hsolid c hc).1,
        skipBlanks_eq_self fun c hc => (hsolid' c hc).1] at hskip
      obtain ⟨rfl, hfirst⟩ := complex_writesBack.aligned hp hskip.symm
      obtain ⟨-, hothers⟩ := hnext.aligned hq (List.append_cancel_left hskip).symm
      exact List.forall_mem_cons.2 ⟨hfirst, hothers⟩
  · intro hok
    cases h with
    | @intro v p q w first others _ hp hq _ =>
      rw [List.forall_mem_cons] at hok
      have hwritten := SelectorList.intro blanks_nil (complex_writesBack.written hp hok.1)
        (hnext.written hq hok.2) blanks_nil
      rw [toList_renderGroups]
      simpa using hwritten

/-- What is read as a list survives being written exactly if all its tokens are faithful: only
then is the whole of the written list read as the same groups. -/
theorem reread_rendered_iff {cs rest : List Char} {groups : List Group}
    (h : read cs = .ok (groups, rest)) :
    read (renderGroups groups).toList = .ok (groups, []) ↔
      ∀ g ∈ groups, ∀ t ∈ g, Faithful t := by
  obtain ⟨p, rfl, hp⟩ := selectorList_readsLongest.sound (read_eq_ok_iff.1 h)
  rw [← selectorList_written_iff hp, read_eq_ok_iff]
  constructor
  · intro hwritten
    obtain ⟨q, htext, hq⟩ := selectorList_readsLongest.sound hwritten
    rw [htext, List.append_nil]
    exact hq
  · intro hwritten
    obtain ⟨gs, rest', hread', hrest, hvalue, -⟩ := selectorList_readsLongest.reach [] hwritten
    obtain rfl := List.eq_nil_of_suffix_nil hrest
    rw [List.append_nil, hvalue rfl] at hread'
    exact hread'

/-- A list with a class, a value and an argument survives; a class that is no identifier does
not. -/
theorem reread_short_forms :
    (∃ groups, groups = [[.tag "p", .combinator .child, .tag "a", .attr "b" .equals "c"],
        [.attr "class" .includes "d", .pseudoClass "e" (some "f")]] ∧
      read "p >a[b='c'] ,.d:e( f )".toList = .ok (groups, []) ∧
      read (renderGroups groups).toList = .ok (groups, [])) ∧
    read "[class~='a.b']".toList = .ok ([[.attr "class" .includes "a.b"]], []) ∧
      read (renderGroups [[.attr "class" .includes "a.b"]]).toList ≠
        .ok ([[.attr "class" .includes "a.b"]], []) := by
  have hkept : read "p >a[b='c'] ,.d:e( f )".toList =
      .ok ([[.tag "p", .combinator .child, .tag "a", .attr "b" .equals "c"],
        [.attr "class" .includes "d", .pseudoClass "e" (some "f")]], []) := by
    decide +kernel
  have hlost : read "[class~='a.b']".toList = .ok ([[.attr "class" .includes "a.b"]], []) := by
    decide +kernel
  refine ⟨⟨_, rfl, hkept, (reread_rendered_iff hkept).2 (by decide +kernel)⟩, hlost, ?_⟩
  rw [ne_eq, reread_rendered_iff hlost]
  decide +kernel

end MarkupQuery.Selector.Grammar

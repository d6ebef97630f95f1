import MarkupQuery.Markup.Page
import MarkupQuery.Proofs.Markup.Growing
import MarkupQuery.Proofs.Markup.Pieces

/-!
# MarkupQuery.Proofs.Markup.RoundTrip — reading undoes writing

The pieces of a text grow a tree one after the other. `GrowingTree.grow` reads a text into a
tree that has grown already, so that what is written can be followed from its front: noise
leaves the tree alone (`grow_noise`), a text is joined character by character
(`grow_spreads`), and a forest becomes the latest nodes of the innermost open element
(`grow_writes`, by induction on the way it is written). The names of the open elements are
those that the noise has to avoid, and their number is the depth that is used up.
-/

namespace MarkupQuery.Markup

namespace GrowingTree

/-! ## Reading into a tree -/

/-- The tree with the pieces of a text taken up, and the text left. -/
def grow (g : GrowingTree) (cs : List Char) : GrowingTree × List Char :=
  ((tokens cs).1.foldl step g, (tokens cs).2)

theorem document_eq_grow (cs : List Char) :
    document cs = ((empty.grow cs).1.finish, (empty.grow cs).2) := rfl

theorem grow_nil (g : GrowingTree) : g.grow [] = (g, []) := by
  have hnone : token [] = none := by decide
  simp only [grow, tokens, Reader.many_of_none hnone, List.foldl_nil]

/-- One piece is taken up, and reading goes on behind it. -/
theorem grow_of_token {cs rest : List Char} {piece : Token}
    (h : token cs = some (piece, rest)) (g : GrowingTree) :
    g.grow cs = (g.step piece).grow rest := by
  simp only [grow, tokens, Reader.many_of_some h, List.foldl_cons]

/-- Noise leaves the tree alone. -/
theorem grow_noise {g : GrowingTree} {n : List Char}
    (h : Noise (g.opened.map OpenElement.name) n) (t : List Char) :
    g.grow (n ++ t) = g.grow t := by
  obtain ⟨piece, hread, hpiece⟩ := token_noise h t
  rw [grow_of_token hread]
  rcases hpiece with rfl | ⟨name, rfl, hother⟩
  · rfl
  · -- no element of this name is open
    have hnone : g.opened.findIdx? (fun e => sameName e.name name) = none := by
      rw [List.findIdx?_eq_none_iff]
      intro e he
      exact hother e.name (List.mem_map_of_mem he)
    simp only [step, leave, hnone]

/-! ## Texts -/

/-- Add a text that may be empty. -/
def addText (g : GrowingTree) (t : List Char) : GrowingTree :=
  if t = [] then g else g.add (.text (String.ofList t))

theorem addText_cons (g : GrowingTree) (c : Char) (t : List Char) :
    g.addText (c :: t) = (g.add (.text (String.singleton c))).addText t := by
  unfold addText
  cases t with
  | nil => simp
  | cons d t =>
    simp only [reduceCtorEq, if_false, add_text_add_text]
    simp

/-- A character other than `<` is added to the text before it. -/
theorem grow_char {c : Char} (hc : c ≠ '<') (g : GrowingTree) (t : List Char) :
    g.grow (c :: t) = (g.add (.text (String.singleton c))).grow t := by
  rw [grow_of_token (token_plain hc t)]
  cases t with
  | nil => simp [step]
  | cons d t =>
    by_cases hd : d = '<'
    · simp [step, hd]
    · -- the rest of the text is read as one piece, and joined
      rw [grow_of_token (token_plain hd t)]
      simp [step, hd, add_text_add_text]

/-- A `<` that starts nothing is added to the text before it. -/
theorem grow_less {follow : List Char} (h : StartsNothing follow) (g : GrowingTree) :
    g.grow ('<' :: follow) = (g.add (.text "<")).grow follow := by
  rcases token_less h with hread | ⟨t, rfl, hread⟩
  · rw [grow_of_token hread]
    rfl
  · -- the slash was taken together with the `<`
    rw [grow_of_token hread, grow_char (by decide), add_text_add_text]
    rfl

/-- A text is added as it is, whatever noise is in it. -/
theorem grow_spreads {opened : List String} {rest t whole : List Char}
    (h : Spreads opened rest t whole) (g : GrowingTree)
    (hopened : g.opened.map OpenElement.name = opened) :
    g.grow whole = (g.addText t).grow rest := by
  induction h generalizing g with
  | nil => rfl
  | @char c t whole hless _ ih =>
    rw [addText_cons]
    by_cases hc : c = '<'
    · subst hc
      rw [grow_less (hless rfl)]
      exact ih _ hopened
    · rw [grow_char hc]
      exact ih _ hopened
  | noise hn _ ih =>
    rw [← hopened] at hn
    rw [grow_noise hn]
    exact ih g hopened

/-! ## Forests -/

/-- Where not too many elements are open, an element is opened inside of them. -/
theorem enter_of_length_lt {g : GrowingTree} (h : g.opened.length < 512) (name : String)
    (attributes : List Attribute) : g.enter name attributes = g.openInside name attributes :=
  if_neg (Nat.ne_of_lt h)

/-- The tree has grown up to a place where a forest can stand: the elements that are open
there are open in the tree, no two texts meet, and enough of the depth is left. -/
structure Awaits (g : GrowingTree) (opened : List String) (ns : List Node) : Prop where
  names : g.opened.map OpenElement.name = opened
  writable : Node.WritableAll ns
  apart : ¬ (Node.StartsWithText ns ∧ Node.StartsWithText g.latest)
  depth : Node.depthAll ns + g.opened.length ≤ 512

/-- Behind its first node the rest of the forest can stand. -/
theorem Awaits.behind {g : GrowingTree} {opened : List String} {n : Node} {ns : List Node}
    (h : g.Awaits opened (n :: ns)) : Awaits ⟨n :: g.latest, g.opened⟩ opened ns := by
  obtain ⟨hnames, hwritable, -, hdepth⟩ := h
  simp only [Node.WritableAll] at hwritable
  obtain ⟨-, hside, hns⟩ := hwritable
  refine ⟨hnames, hns, ?_, ?_⟩
  · rintro ⟨hstarts, hlatest⟩
    apply hside
    -- the latest node is now the one that the forest started with
    cases n with
    | text _ => exact ⟨trivial, hstarts⟩
    | element _ _ _ => exact hlatest.elim
  · simp only [Node.depthAll] at hdepth
    show Node.depthAll ns + g.opened.length ≤ 512
    omega

section

variable {g : GrowingTree} {opened : List String} {name : String} {attributes : List Attribute}
  {contents ns : List Node} (h : g.Awaits opened (.element name attributes contents :: ns))

include h

/-- The first element of an awaited forest can be written. -/
theorem Awaits.element : IsName name ∧ (∀ a ∈ attributes, a.Writable) ∧
    (isRawText name = true → IsRaw name contents) := by
  have hwritable := h.writable
  simp only [Node.WritableAll, Node.Writable] at hwritable
  exact ⟨hwritable.1.1, hwritable.1.2.1, hwritable.1.2.2.2.1⟩

/-- One element more can be open. -/
theorem Awaits.length_lt : g.opened.length < 512 := by
  have hdepth := h.depth
  simp only [Node.depthAll, Node.depth] at hdepth
  omega

/-- Inside of its first element the contents of that element can stand. -/
theorem Awaits.inside : (g.openInside name attributes).Awaits (name :: opened) contents := by
  obtain ⟨hnames, hwritable, -, hdepth⟩ := h
  simp only [Node.WritableAll, Node.Writable] at hwritable
  refine ⟨by simp [openInside, hnames], hwritable.1.2.2.2.2, fun h => h.2, ?_⟩
  simp only [Node.depthAll, Node.depth] at hdepth
  simp only [openInside, List.length_cons]
  omega

end

/-- A whole element is added as the latest node. -/
theorem grow_whole {cs rest : List Char} {name : String} {attributes : List Attribute}
    {contents : List Node} (h : token cs = some (.whole ⟨name, attributes, contents⟩, rest))
    (g : GrowingTree) :
    g.grow cs = grow ⟨.element name attributes contents :: g.latest, g.opened⟩ rest := by
  have hadd : g.add (.element name attributes contents) =
      ⟨.element name attributes contents :: g.latest, g.opened⟩ := add_of_apart fun h => h.1
  rw [grow_of_token h, ← hadd]
  rfl

/-- What a raw text element is written with does not end it. -/
theorem not_holdsEndTag {name : String} {raw : List Char} (h : IsRaw name (rawContents raw)) :
    ¬ HoldsEndTag name raw := by
  cases raw with
  | nil =>
    rintro ⟨before, name', after, heq, -⟩
    simp at heq
  | cons c raw =>
    rcases h with hnil | ⟨content, hcontent, hfree⟩
    · simp [rawContents] at hnil
    · obtain rfl : String.ofList (c :: raw) = content := by simpa [rawContents] using hcontent
      rwa [String.toList_ofList] at hfree

/-- What is written of a forest becomes the latest nodes of the tree. -/
theorem grow_writes {opened : List String} {rest whole : List Char} {ns : List Node}
    (h : Writes opened rest ns whole) (g : GrowingTree) (hg : g.Awaits opened ns) :
    g.grow whole = grow ⟨ns.reverse ++ g.latest, g.opened⟩ rest := by
  induction h generalizing g with
  | nil => rfl
  | noise hn _ ih =>
    rw [← hg.names] at hn
    rw [grow_noise hn]
    exact ih g hg
  | @text opened rest whole whole' content ns _ hspreads ih =>
    have hne : content.toList ≠ [] := by
      have hwritable := hg.writable
      simp only [Node.WritableAll, Node.Writable] at hwritable
      exact hwritable.1
    have hadd : g.addText content.toList = ⟨.text content :: g.latest, g.opened⟩ := by
      rw [addText, if_neg hne, String.ofList_toList]
      exact add_of_apart fun h => hg.apart ⟨trivial, h.2⟩
    rw [grow_spreads hspreads g hg.names, hadd, ih _ hg.behind]
    simp
  | void hvoid _ ih =>
    obtain ⟨hname, hattributes, -⟩ := hg.element
    rw [grow_whole (token_void hname hattributes hvoid _), ih _ hg.behind]
    simp
  | @raw opened rest whole raw name attributes ns hkind _ ih =>
    obtain ⟨hname, hattributes, hcontents⟩ := hg.element
    have hraw := not_holdsEndTag (hcontents hkind)
    rw [grow_whole (token_raw hname hattributes hkind hraw _), ih _ hg.behind]
    simp
  | @element opened rest inner whole name attributes contents ns hvoid hkind _ _ ih ihContents =>
    obtain ⟨hname, hattributes, -⟩ := hg.element
    have hopen : g.step (.opening name attributes) = g.openInside name attributes :=
      enter_of_length_lt hg.length_lt name attributes
    have hclose : step ⟨contents.reverse ++ [], ⟨name, attributes, g.latest⟩ :: g.opened⟩
        (.closing name) = ⟨.element name attributes contents :: g.latest, g.opened⟩ := by
      rw [step, leave_innermost (e := ⟨name, attributes, g.latest⟩) rfl]
      simp [close]
    rw [grow_of_token (token_element hname hattributes hvoid hkind inner), hopen,
      ihContents _ hg.inside]
    -- the contents are read, and the closing tag ends their element
    rw [grow_of_token (token_closing hname whole)]
    simp only [openInside] at hclose ⊢
    rw [hclose, ih _ hg.behind]
    simp

end GrowingTree

/-- Reading undoes writing: whatever noise a document is written with, it is read back, and
nothing of the text is left. -/
theorem document_written {d : Document} {cs : List Char} (hd : d.Writable)
    (h : d.IsWritten cs) : document cs = (d, []) := by
  have hempty : GrowingTree.empty.Awaits [] d.contents :=
    ⟨rfl, hd.nodes, fun h => h.2, hd.depth⟩
  rw [GrowingTree.document_eq_grow, GrowingTree.grow_writes h GrowingTree.empty hempty,
    GrowingTree.grow_nil]
  simp [GrowingTree.empty, GrowingTree.finish, GrowingTree.closeMany]

/-! ## A page with noise -/

/-- A list with an item that is void, and a script. -/
def listPage : Document :=
  ⟨[.element "ul" [⟨"id", "a>b"⟩] [.text "1 < 2", .element "br" [] []],
    .element "script" [] [.text "a<b"]]⟩

/-- The page with a declaration before it, a comment inside of its first text, and a closing
tag of no open element behind that. -/
def listText : List Char :=
  "<!DOCTYPE html><ul id=\"a>b\">1 <!--x-->< 2</b><br></ul><script>a<b</script>".toList

theorem listPage_writable : listPage.Writable := by
  have hul : IsName "ul" := isName_iff.2 (by decide)
  have hbr : IsName "br" := isName_iff.2 (by decide)
  have hscript : IsName "script" := isName_iff.2 (by decide)
  have hid : Attribute.Writable ⟨"id", "a>b"⟩ := ⟨by decide, by simp, by simp⟩
  have hraw : IsRaw "script" [.text "a<b"] := by
    refine .inr ⟨"a<b", rfl, ?_⟩
    rintro ⟨before, name, after, heq, -⟩
    have hslash : '/' ∈ "a<b".toList := by simp [heq]
    exact absurd hslash (by decide)
  have hkinds : isVoid "ul" = false ∧ isRawText "ul" = false ∧ isRawText "br" = false ∧
      isVoid "script" = false := by decide
  refine ⟨?_, by decide⟩
  simp [listPage, Node.WritableAll, Node.Writable, Node.StartsWithText, hul, hbr, hscript, hid,
    hraw, hkinds]

theorem listPage_written : listPage.IsWritten listText := by
  have hscript : Writes [] [] [.element "script" [] (rawContents ['a', '<', 'b'])] _ :=
    .raw (by decide) .nil
  have hbr {rest : List Char} : Writes ["ul"] rest [.element "br" [] []] _ :=
    .void (by decide) .nil
  have hcomment : Noise ["ul"] _ := .comment (show ¬ ['-', '-', '>'] <:+: ['x'] by decide)
  have hb : IsName "b" := isName_iff.2 (by decide)
  have hclosing : Noise ["ul"] _ := .closing hb (by decide)
  have hless {whole : List Char} : StartsNothing (' ' :: whole) := ⟨by simp, by simp⟩
  have htext {rest : List Char} : Spreads ["ul"] rest ['1', ' ', '<', ' ', '2'] _ :=
    .char (by simp) (.char (by simp) (.noise hcomment (.char (fun _ => hless)
      (.char (by simp) (.char (by simp) (.noise hclosing .nil))))))
  have hitems {rest : List Char} :
      Writes ["ul"] rest [.text "1 < 2", .element "br" [] []] _ := .text hbr htext
  have hul : Writes [] [] listPage.contents _ :=
    .element (by decide) (by decide) hscript hitems
  have hdoctype : Noise [] _ := .declaration
    (show ∀ c ∈ "DOCTYPE html".toList, c ≠ '>' by simp) (by decide)
  refine cast (congrArg (Writes [] [] listPage.contents) ?_) (Writes.noise hdoctype hul)
  decide

/-- The page is read back from this text. -/
theorem document_listText : listPage.Writable ∧ listPage.IsWritten listText ∧
    document listText = (listPage, []) :=
  ⟨listPage_writable, listPage_written, document_written listPage_writable listPage_written⟩

end MarkupQuery.Markup

import Mathlib.Logic.Relation
import MarkupQuery.Document.Element
import MarkupQuery.Proofs.Text.Trimming

/-!
# MarkupQuery.Proofs.Document.TrimmedLeaves — the text of an element and its leaves

The text of an element is made of the leaves below it that say something, each trimmed on its
own. How they are nested, and what white space stands around them, has no part in it.

It is written in one walk, which hands what is written so far through elements of any depth.
Whatever that is, the walk over a forest puts behind it what the leaves say and nothing else
(`appendTextAll_eq_append_join`), so the nesting is forgotten where the walk begins.

`Flattens` is one change of a forest that takes such things away: a text is trimmed, a white
text is dropped, or an element makes way for its contents. No change alters what is said
(`Flattens.said_eq`), and every forest can be changed until nothing but what it says is left
(`flattens_saidAll`). So two forests can be turned into one another exactly if they say the
same (`eqvGen_flattens_iff`), and their elements then have the same text.
-/

namespace MarkupQuery

open Relation (ReflTransGen EqvGen)

/-! ## What leaves say -/

/-- The texts that are not white, each trimmed. -/
def said (leaves : List String) : List String :=
  (leaves.filter fun s => !Text.isWhite s).map Text.trim

theorem said_cons_white {s : String} (hs : Text.isWhite s = true) (ss : List String) :
    said (s :: ss) = said ss := by
  simp [said, hs]

theorem said_cons {s : String} (hs : Text.isWhite s = false) (ss : List String) :
    said (s :: ss) = Text.trim s :: said ss := by
  simp [said, hs]

theorem said_append (ss ts : List String) : said (ss ++ ts) = said ss ++ said ts := by
  simp [said]

/-- A white text says nothing, so it is not missed where trimmed texts are joined. -/
theorem join_said (ss : List String) : String.join (said ss) = String.join (ss.map Text.trim) := by
  induction ss with
  | nil => rfl
  | cons s ss ih =>
    rw [List.map_cons, String.join_cons, ← ih]
    cases hs : Text.isWhite s with
    | true => rw [said_cons_white hs, Text.trim_eq_empty_iff.2 hs, String.empty_append]
    | false => rw [said_cons hs, String.join_cons]

namespace Node

mutual

/-- The texts in a node, in document order. -/
def leaves : Node → List String
  | .element _ _ contents => leavesAll contents
  | .text content => [content]

/-- The texts in a forest, in document order. -/
def leavesAll : List Node → List String
  | [] => []
  | n :: ns => n.leaves ++ leavesAll ns

end

theorem leavesAll_append (ms ns : List Node) : leavesAll (ms ++ ns) = leavesAll ms ++ leavesAll ns := by
  induction ms with
  | nil => rfl
  | cons m ms ih => simp [leavesAll, ih]

/-- What a forest says, in document order. -/
def saidAll (ns : List Node) : List String :=
  said (leavesAll ns)

/-! ## The walk over a forest -/

mutual

/-- The walk over a node writes its leaves, each trimmed, behind what is written already. -/
theorem appendText_eq (written : String) : (n : Node) →
    appendText written n = written ++ String.join (n.leaves.map Text.trim)
  | .element _ _ contents => appendTextAll_eq written contents
  | .text content => by
    rw [appendText, leaves, List.map_singleton, String.join_cons, String.join_nil,
      String.append_empty]

/-- The walk over a forest does so as well: the second node is come to with what is written of
the first. -/
theorem appendTextAll_eq (written : String) : (ns : List Node) →
    appendTextAll written ns = written ++ String.join ((leavesAll ns).map Text.trim)
  | [] => by
    rw [appendTextAll, leavesAll, List.map_nil, String.join_nil, String.append_empty]
  | n :: ns => by
    rw [appendTextAll, appendTextAll_eq (appendText written n) ns, appendText_eq written n]
    rw [leavesAll, List.map_append, String.join_append, String.append_assoc]

end

/-- What the walk over a forest writes is what the forest says, behind anything. -/
theorem appendTextAll_eq_append_join (written : String) (ns : List Node) :
    appendTextAll written ns = written ++ String.join (saidAll ns) := by
  rw [appendTextAll_eq, saidAll, join_said]

/-! ## Changes that flatten a forest -/

/-- One change of a forest: a text is trimmed, a white text is dropped, or an element makes way
for its contents; at the front, inside an element or further behind. -/
inductive Flattens : List Node → List Node → Prop where
  | trimmed {s : String} {ns : List Node} :
      Flattens (.text s :: ns) (.text (Text.trim s) :: ns)
  | dropped {s : String} {ns : List Node} :
      Text.isWhite s = true → Flattens (.text s :: ns) ns
  | dissolved {name : String} {attributes : List Attribute} {contents ns : List Node} :
      Flattens (.element name attributes contents :: ns) (contents ++ ns)
  | inside {name : String} {attributes : List Attribute} {contents contents' ns : List Node} :
      Flattens contents contents' →
      Flattens (.element name attributes contents :: ns) (.element name attributes contents' :: ns)
  | behind {n : Node} {ns ns' : List Node} :
      Flattens ns ns' → Flattens (n :: ns) (n :: ns')

/-- No change alters what is said. -/
theorem Flattens.said_eq {ns ns' : List Node} (h : Flattens ns ns') : saidAll ns' = saidAll ns := by
  unfold saidAll
  induction h with
  | @trimmed s ns =>
    simp only [leavesAll, leaves, List.singleton_append]
    have htrim := Text.isWhite_trim s
    cases hs : Text.isWhite s with
    | true =>
      rw [hs] at htrim
      rw [said_cons_white hs, said_cons_white htrim]
    | false =>
      rw [hs] at htrim
      rw [said_cons hs, said_cons htrim, Text.trim_trim]
  | dropped hs =>
    simp only [leavesAll, leaves, List.singleton_append]
    exact (said_cons_white hs _).symm
  | dissolved => rw [leavesAll_append, leavesAll, leaves]
  | inside _ ih =>
    simp only [leavesAll, leaves, said_append]
    rw [ih]
  | behind _ ih =>
    simp only [leavesAll, said_append]
    rw [ih]

/-- No number of changes does, made or undone. -/
theorem said_eq_of_eqvGen {ns ns' : List Node} (h : EqvGen Flattens ns ns') :
    saidAll ns' = saidAll ns := by
  induction h with
  | rel _ _ h => exact h.said_eq
  | refl _ => rfl
  | symm _ _ _ ih => exact ih.symm
  | trans _ _ _ _ _ ih₁ ih₂ => exact ih₂.trans ih₁

/-- What stands behind a forest stays. -/
theorem Flattens.append {ns ns' : List Node} (h : Flattens ns ns') (ms : List Node) :
    Flattens (ns ++ ms) (ns' ++ ms) := by
  induction h with
  | trimmed => exact .trimmed
  | dropped hs => exact .dropped hs
  | dissolved =>
    rw [List.append_assoc]
    exact .dissolved
  | inside h _ => exact .inside h
  | behind _ ih => exact .behind ih

/-- A forest can be changed behind any node. -/
theorem flattens_behind {ns ns' : List Node} (h : ReflTransGen Flattens ns ns') (n : Node) :
    ReflTransGen Flattens (n :: ns) (n :: ns') :=
  h.lift (n :: ·) fun _ _ h => .behind h

mutual

/-- A node can be changed until only what it says is left. -/
theorem flattens_said : (n : Node) → (ms : List Node) →
    ReflTransGen Flattens (n :: ms) ((said n.leaves).map .text ++ ms)
  | .element name attributes contents, ms => by
    have hcontents : ReflTransGen Flattens (contents ++ ms)
        ((saidAll contents).map .text ++ ms) :=
      (flattens_saidAll contents).lift (· ++ ms) fun _ _ h => h.append ms
    exact .head .dissolved hcontents
  | .text s, ms => by
    cases hs : Text.isWhite s with
    | true =>
      rw [leaves, said_cons_white hs]
      exact .single (.dropped hs)
    | false =>
      rw [leaves, said_cons hs]
      exact .single .trimmed

/-- A forest can be changed until only what it says is left, each text on its own. -/
theorem flattens_saidAll : (ns : List Node) →
    ReflTransGen Flattens ns ((saidAll ns).map .text)
  | [] => .refl
  | n :: ns => by
    have hbehind := flattens_behind (flattens_saidAll ns) n
    have hfront := flattens_said n ((saidAll ns).map .text)
    rw [saidAll, leavesAll, said_append, List.map_append]
    exact hbehind.trans hfront

end

/-- Two forests say the same exactly if they can be turned into one another by such changes. -/
theorem eqvGen_flattens_iff {ns ns' : List Node} :
    EqvGen Flattens ns ns' ↔ saidAll ns' = saidAll ns := by
  refine ⟨said_eq_of_eqvGen, ?_⟩
  intro hsaid
  have hns := EqvGen.reflTransGen_le_eqvGen Flattens _ _ (flattens_saidAll ns)
  have hns' := EqvGen.reflTransGen_le_eqvGen Flattens _ _ (flattens_saidAll ns')
  rw [hsaid] at hns'
  exact .trans _ _ _ hns (.symm _ _ hns')

/-! ## Stripping -/

mutual

/-- What is left of a node where all texts are trimmed and the white ones dropped. -/
def stripped : Node → List Node
  | .element name attributes contents => [.element name attributes (strippedAll contents)]
  | .text s => if Text.trim s = "" then [] else [.text (Text.trim s)]

/-- A forest with all of its texts trimmed and the white ones dropped, at every level. -/
def strippedAll : List Node → List Node
  | [] => []
  | n :: ns => n.stripped ++ strippedAll ns

end

mutual

/-- Stripping a node is a number of changes. -/
theorem flattens_stripped : (n : Node) → (ms : List Node) →
    ReflTransGen Flattens (n :: ms) (n.stripped ++ ms)
  | .element name attributes contents, ms =>
    (flattens_strippedAll contents).lift (fun inner => .element name attributes inner :: ms)
      fun _ _ h => .inside h
  | .text s, ms => by
    rw [stripped]
    split
    · rename_i hs
      exact .single (.dropped (Text.trim_eq_empty_iff.1 hs))
    · exact .single .trimmed

/-- Stripping a forest is a number of changes. -/
theorem flattens_strippedAll : (ns : List Node) → ReflTransGen Flattens ns (strippedAll ns)
  | [] => .refl
  | n :: ns => by
    have hbehind := flattens_behind (flattens_strippedAll ns) n
    rw [strippedAll]
    exact hbehind.trans (flattens_stripped n (strippedAll ns))

end

end Node

/-! ## The text of an element -/

namespace Element

/-- What the leaves below an element say, in document order. -/
def said (e : Element) : List String :=
  Node.saidAll e.contents

/-- The text of an element is what its leaves say, one behind the other. -/
theorem text_eq_join_said (e : Element) : e.text = String.join e.said := by
  rw [text, Node.appendTextAll_eq_append_join, String.empty_append, said]

theorem isTight_text (e : Element) : Text.IsTight e.text.toList := by
  rw [text_eq_join_said]
  apply Text.isTight_join
  intro s hs
  obtain ⟨leaf, -, rfl⟩ := List.mem_map.1 hs
  rw [Text.trim, String.toList_ofList]
  exact Text.isTight_trimChars _

/-- The text of an element depends on nothing but what its leaves say: the walk that builds it
puts that behind whatever is written, and nothing else. It stays the same where texts below are
trimmed, white texts dropped or elements dissolved, in any number and at any place, or where
this is undone; in particular where the contents are stripped. Such changes lead from one
forest to another exactly if both say the same, so elements that say the same have the same
text. The text neither begins nor ends with white space. -/
theorem text_of_said (e : Element) :
    (∀ written, Node.appendTextAll written e.contents = written ++ String.join e.said) ∧
    (∀ contents, EqvGen Node.Flattens e.contents contents →
      (Element.mk e.name e.attributes contents).text = e.text) ∧
    (Element.mk e.name e.attributes (Node.strippedAll e.contents)).text = e.text ∧
    (∀ other : Element, other.said = e.said ↔ EqvGen Node.Flattens e.contents other.contents) ∧
    (∀ other : Element, other.said = e.said → other.text = e.text) ∧
    (∀ c ∈ e.text.toList.head?, Text.isWhiteSpace c = false) ∧
    ∀ c ∈ e.text.toList.getLast?, Text.isWhiteSpace c = false := by
  have hsame : ∀ other : Element, other.said = e.said → other.text = e.text := by
    intro other hsaid
    rw [text_eq_join_said, text_eq_join_said, hsaid]
  have hchanged : ∀ contents, EqvGen Node.Flattens e.contents contents →
      (Element.mk e.name e.attributes contents).text = e.text := by
    intro contents h
    exact hsame _ (Node.said_eq_of_eqvGen h)
  have hstripped := EqvGen.reflTransGen_le_eqvGen Node.Flattens _ _
    (Node.flattens_strippedAll e.contents)
  refine ⟨?_, hchanged, hchanged _ hstripped, ?_, hsame, e.isTight_text⟩
  · intro written
    exact Node.appendTextAll_eq_append_join written e.contents
  · intro other
    exact Node.eqvGen_flattens_iff.symm

/-- A division says two words, one of them two levels down, and the walk puts both behind a
prompt; a paragraph that holds just these words says the same. To dissolve the emphasis and to
drop the white text at the end leaves the text as it is. White space inside of a word is kept. -/
theorem text_of_nested :
    let emphasis : Node := .element "em" [] [.text "\u2003W ars"]
    let span : Node := .element "span" [] [.text " Star ", emphasis]
    let flat : Node := .element "span" [] [.text " Star ", .text "\u2003W ars"]
    let division : Element := ⟨"div", [], [.text "\n  ", span, .text "\n"]⟩
    let paragraph : Element := ⟨"p", [], [.text "Star", .text "W ars"]⟩
    Node.appendTextAll "> " division.contents = "> StarW ars" ∧
      EqvGen Node.Flattens division.contents [.text "\n  ", flat] ∧
      (Element.mk "div" [] [.text "\n  ", flat]).text = division.text ∧
      (Element.mk "div" [] [.element "span" [] [.text "Star", .element "em" [] [.text "W ars"]]]).text =
        division.text ∧
      paragraph.said = division.said ∧
      EqvGen Node.Flattens division.contents paragraph.contents ∧
      paragraph.text = division.text ∧ division.text = "StarW ars" ∧
      'S' ∈ division.text.toList.head? ∧ Text.isWhiteSpace 'S' = false ∧
      's' ∈ division.text.toList.getLast? ∧ Text.isWhiteSpace 's' = false := by
  intro emphasis span flat division paragraph
  obtain ⟨hwalk, hchanged, hstripped, hequal, hsame, hhead, hlast⟩ := text_of_said division
  have hflat : EqvGen Node.Flattens division.contents [.text "\n  ", flat] :=
    .trans _ _ _ (.rel _ _ (.behind (.inside (.behind .dissolved))))
      (.rel _ _ (.behind (.behind (.dropped (by decide)))))
  have hprompt : "> " ++ String.join division.said = "> StarW ars" := by decide
  have hsaid : paragraph.said = division.said := by decide
  have htext : division.text = "StarW ars" := by decide
  have hfirst : 'S' ∈ division.text.toList.head? := by rw [htext]; decide
  have hend : 's' ∈ division.text.toList.getLast? := by rw [htext]; decide
  exact ⟨(hwalk "> ").trans hprompt, hflat, hchanged _ hflat, hstripped, hsaid,
    (hequal paragraph).1 hsaid, hsame _ hsaid, htext, hfirst, hhead _ hfirst, hend, hlast _ hend⟩

end Element

end MarkupQuery

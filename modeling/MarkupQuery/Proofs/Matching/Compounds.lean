import Mathlib.Data.List.Forall2
import MarkupQuery.Matching

/-!
# MarkupQuery.Proofs.Matching.Compounds — what a group asks of an element

The meaning of a group, without the search: its compounds, what a token and a compound
ask of one element, and what the compounds ask of an element together with its
ancestors. The compounds before the last have to hold of ancestors, in their order from
the outermost on, with any number of others between them (`Descends`).

The second half ties the tests of the search to this meaning. A compound whose tokens all
have a test is decided (`compoundHolds_of_tests`); one with a token that has none fails
exactly where the tokens before that one hold (`compoundHolds_of_untested`).
-/

namespace MarkupQuery

open Selector (Token Group)

/-! ## Tokens -/

/-- The search has a test for the token. -/
def Selector.Token.HasTest : Token → Prop
  | .tag _ => True
  | .attr name _ _ => name = "class"
  | _ => False

/-- The search can deal with the token: it has a test for it, or cuts groups at it. -/
def Selector.Token.IsSupported (t : Token) : Prop :=
  t.HasTest ∨ t = .combinator .descendant

/-- What a token asks of an element. The test of a class is the same for every kind of
test: its value has to occur in the value of some attribute `class`. -/
def Selector.Token.HoldsOf (t : Token) (e : Element) : Prop :=
  match t with
  | .tag name => e.name = name
  | .attr name _ value =>
    name = "class" ∧ ∃ a ∈ e.attributes, a.key = "class" ∧ value.toList <:+: a.value.toList
  | _ => False

instance (t : Token) : Decidable t.HasTest := by
  cases t <;> unfold Selector.Token.HasTest <;> infer_instance

instance (t : Token) : Decidable t.IsSupported :=
  inferInstanceAs (Decidable (_ ∨ _))

/-! ## Compounds -/

/-- The pieces of a group between its descendant combinators. -/
def compounds (group : Group) : List Group :=
  group.splitOn (.combinator .descendant)

/-- Every token of the compound holds of the element. -/
def Element.Satisfies (e : Element) (compound : Group) : Prop :=
  ∀ t ∈ compound, t.HoldsOf e

/-- Every token of the compound holds of the node. A text satisfies nothing but the
compound without tokens. -/
def Node.Satisfies (compound : Group) : Node → Prop
  | .element name attributes contents =>
    Element.Satisfies ⟨name, attributes, contents⟩ compound
  | .text _ => compound = []

/-- Among the ancestors, read from the outermost on, there are elements that satisfy the
compounds one after the other. -/
def Descends (cs : List Group) (ancestors : List Located) : Prop :=
  List.SublistForall₂ (fun c a => a.element.Satisfies c) cs ancestors

/-- An element with these ancestors is one that the compounds describe: it satisfies the
last of them, and its ancestors the ones before. -/
def Described (cs : List Group) (ancestors : List Located) (e : Element) : Prop :=
  ∃ earlier last, cs = earlier ++ [last] ∧ e.Satisfies last ∧ Descends earlier ancestors

/-! ## Cutting a group -/

/-- A descendant combinator ends a compound, which is empty where nothing stands before it. -/
theorem compounds_cons_descendant (ts : Group) :
    compounds (.combinator .descendant :: ts) = [] :: compounds ts := by
  unfold compounds
  rw [List.splitOn_cons_eq_if_modifyHead]
  simp

/-- Any other token belongs to the first compound. -/
theorem compounds_cons_of_ne {t : Token} (ht : t ≠ .combinator .descendant) (ts : Group) :
    ∃ c cs, compounds ts = c :: cs ∧ compounds (t :: ts) = (t :: c) :: cs := by
  unfold compounds
  rw [List.splitOn_cons_eq_if_modifyHead]
  cases hs : ts.splitOn (.combinator .descendant) with
  | nil => exact absurd hs (List.splitOn_ne_nil _ _)
  | cons c cs => exact ⟨c, cs, rfl, by simp [ht]⟩

/-- The first compound is what the search tests first, and the others are those of what
stands behind it. -/
theorem compounds_eq (group : Group) :
    compounds group = (splitDescendant group).1 ::
      ((splitDescendant group).2.map compounds).getD [] := by
  induction group with
  | nil => rfl
  | cons t ts ih =>
    by_cases ht : t = .combinator .descendant
    · rw [ht, compounds_cons_descendant]
      rfl
    · obtain ⟨c, cs, hrest, hall⟩ := compounds_cons_of_ne ht ts
      rw [hrest] at ih
      rw [hall, splitDescendant.eq_3 t ts ht]
      simp only [List.cons.injEq, true_and] at ih ⊢
      exact ih

/-- Cutting a group drops its descendant combinators and keeps all other tokens. -/
theorem mem_of_mem_compounds {group c : Group} {t : Token} (hc : c ∈ compounds group)
    (ht : t ∈ c) : t ∈ group ∧ t ≠ .combinator .descendant := by
  induction group generalizing c with
  | nil =>
    simp only [compounds, List.splitOn_nil, List.mem_singleton] at hc
    subst hc
    simp at ht
  | cons u us ih =>
    have hlater : ∀ d ∈ compounds us, t ∈ d → t ∈ u :: us ∧ t ≠ .combinator .descendant :=
      fun d hd htd => ⟨List.mem_cons_of_mem u (ih hd htd).1, (ih hd htd).2⟩
    by_cases hu : u = .combinator .descendant
    · rw [hu, compounds_cons_descendant] at hc
      rcases List.mem_cons.1 hc with rfl | hc
      · simp at ht
      · exact hlater c hc ht
    · obtain ⟨d, ds, htail, hall⟩ := compounds_cons_of_ne hu us
      rw [hall] at hc
      rcases List.mem_cons.1 hc with rfl | hc
      · -- the first compound, which the token itself was put in front of
        rcases List.mem_cons.1 ht with rfl | ht
        · exact ⟨List.mem_cons_self, hu⟩
        · exact hlater d (by simp [htail]) ht
      · exact hlater c (by simp [htail, hc]) ht

/-- Every token that is no descendant combinator lands in some compound. -/
theorem exists_compound_of_mem {group : Group} {t : Token} (ht : t ∈ group)
    (hne : t ≠ .combinator .descendant) : ∃ c ∈ compounds group, t ∈ c := by
  induction group with
  | nil => simp at ht
  | cons u us ih =>
    by_cases hu : u = .combinator .descendant
    · have htail : t ∈ us := by
        rcases List.mem_cons.1 ht with rfl | htail
        · exact absurd hu hne
        · exact htail
      obtain ⟨c, hc, htc⟩ := ih htail
      rw [hu, compounds_cons_descendant]
      exact ⟨c, List.mem_cons_of_mem _ hc, htc⟩
    · obtain ⟨d, ds, hrest, hall⟩ := compounds_cons_of_ne hu us
      rw [hrest] at ih
      rw [hall]
      rcases List.mem_cons.1 ht with rfl | htail
      · exact ⟨t :: d, List.mem_cons_self, List.mem_cons_self⟩
      · obtain ⟨c, hc, htc⟩ := ih htail
        rcases List.mem_cons.1 hc with rfl | hc
        · exact ⟨u :: c, List.mem_cons_self, List.mem_cons_of_mem u htc⟩
        · exact ⟨c, List.mem_cons_of_mem _ hc, htc⟩

/-- The compounds of a group of supported tokens are made of tokens that have a test. -/
theorem hasTest_of_mem_compounds {group : Group} (hs : ∀ t ∈ group, t.IsSupported) :
    ∀ c ∈ compounds group, ∀ t ∈ c, t.HasTest := by
  intro c hc t ht
  have hmem := mem_of_mem_compounds hc ht
  rcases hs t hmem.1 with h | h
  · exact h
  · exact absurd h hmem.2

/-! ## Descending -/

/-- Where the outermost ancestor satisfies the first compound nothing is lost by taking it
for that: whatever the compounds find further in, the later ones find as well. -/
theorem descends_cons_of_satisfies {c : Group} {cs : List Group} {a : Located}
    {ancestors : List Located} (h : a.element.Satisfies c) :
    Descends (c :: cs) (a :: ancestors) ↔ Descends cs ancestors := by
  constructor
  · intro hd
    cases hd with
    | cons _ hrest => exact hrest
    | cons_right hskip =>
      -- the first compound was met further in, so the others were too
      generalize hcs : c :: cs = all at hskip
      induction hskip with
      | nil => simp at hcs
      | cons _ hrest _ =>
        simp only [List.cons.injEq] at hcs
        rcases hcs with ⟨-, rfl⟩
        exact hrest.cons_right
      | cons_right _ ih => exact (ih hcs).cons_right
  · intro hd
    exact hd.cons h

/-- An ancestor that does not satisfy the first compound is of no use. -/
theorem descends_cons_of_not_satisfies {c : Group} {cs : List Group} {a : Located}
    {ancestors : List Located} (h : ¬ a.element.Satisfies c) :
    Descends (c :: cs) (a :: ancestors) ↔ Descends (c :: cs) ancestors := by
  constructor
  · intro hd
    cases hd with
    | cons hc _ => exact absurd hc h
    | cons_right hskip => exact hskip
  · intro hd
    exact hd.cons_right

/-- Without ancestors only the empty sequence of compounds is met. -/
theorem descends_nil_right {cs : List Group} : Descends cs [] ↔ cs = [] := by
  constructor
  · intro hd
    cases hd
    rfl
  · rintro rfl
    exact .nil

/-- The empty sequence of compounds is met by any ancestors. -/
theorem descends_nil (ancestors : List Located) : Descends [] ancestors :=
  .nil

/-- One compound describes an element by itself. -/
theorem described_singleton {c : Group} {ancestors : List Located} {e : Element} :
    Described [c] ancestors e ↔ e.Satisfies c := by
  constructor
  · rintro ⟨earlier, last, hcs, he, -⟩
    have : earlier = [] ∧ c = last := by
      cases earlier <;> simp_all
    rw [this.2]
    exact he
  · intro he
    exact ⟨[], c, rfl, he, descends_nil _⟩

/-- More than one compound describe an element by its last and its ancestors. -/
theorem described_cons {c : Group} {cs : List Group} {ancestors : List Located} {e : Element}
    (hcs : cs ≠ []) : Described (c :: cs) ancestors e ↔
      ∃ earlier last, cs = earlier ++ [last] ∧ e.Satisfies last ∧
        Descends (c :: earlier) ancestors := by
  constructor
  · rintro ⟨earlier, last, heq, he, hd⟩
    cases earlier with
    | nil => simp_all
    | cons c' earlier =>
      simp only [List.cons_append, List.cons.injEq] at heq
      rcases heq with ⟨rfl, rfl⟩
      exact ⟨earlier, last, rfl, he, hd⟩
  · rintro ⟨earlier, last, rfl, he, hd⟩
    exact ⟨c :: earlier, last, rfl, he, hd⟩

/-- More than one compound describe no element without ancestors. -/
theorem not_described_nil {c : Group} {cs : List Group} {e : Element} (hcs : cs ≠ []) :
    ¬ Described (c :: cs) [] e := by
  intro h
  rcases (described_cons hcs).1 h with ⟨earlier, last, -, -, hd⟩
  exact absurd (descends_nil_right.1 hd) (by simp)

/-- Below an element that satisfies the first of several compounds the others decide. -/
theorem described_cons_of_satisfies {c : Group} {cs : List Group} {a : Located}
    {ancestors : List Located} {e : Element} (hcs : cs ≠ []) (h : a.element.Satisfies c) :
    Described (c :: cs) (a :: ancestors) e ↔ Described cs ancestors e := by
  rw [described_cons hcs]
  simp only [descends_cons_of_satisfies h, Described]

/-- Below an element that does not satisfy the first compound, all of them decide. -/
theorem described_cons_of_not_satisfies {c : Group} {cs : List Group} {a : Located}
    {ancestors : List Located} {e : Element} (h : ¬ a.element.Satisfies c) :
    Described (c :: cs) (a :: ancestors) e ↔ Described (c :: cs) ancestors e := by
  by_cases hcs : cs = []
  · subst hcs
    rw [described_singleton, described_singleton]
  · rw [described_cons hcs, described_cons hcs]
    simp only [descends_cons_of_not_satisfies h]

/-! ## The tests of the search -/

/-- The node that the search tests, which may be none, satisfies the compound. -/
def Passes (target : Option Element) (compound : Group) : Prop :=
  ∀ t ∈ compound, ∃ e, target = some e ∧ t.HoldsOf e

/-- An element passes what it satisfies. -/
theorem passes_some {e : Element} {c : Group} : Passes (some e) c ↔ e.Satisfies c := by
  simp [Passes, Element.Satisfies]

/-- What is no element passes nothing but the compound without tokens. -/
theorem passes_none {c : Group} : Passes none c ↔ c = [] := by
  simp [Passes, List.eq_nil_iff_forall_not_mem]

/-- The test of a class looks for its value in every attribute `class`. -/
theorem hasClass_iff {e : Element} {name : String} :
    e.hasClass name = true ↔
      ∃ a ∈ e.attributes, a.key = "class" ∧ name.toList <:+: a.value.toList := by
  simp [Element.hasClass, Text.occursIn_iff]

/-- A token that has a test is decided by it. -/
theorem tokenHolds_of_hasTest (target : Option Element) {t : Token} (ht : t.HasTest) :
    ∃ b, tokenHolds target t = .ok b ∧ (b = true ↔ ∃ e, target = some e ∧ t.HoldsOf e) := by
  cases t with
  | tag name =>
    refine ⟨_, rfl, ?_⟩
    cases target <;> simp [Selector.Token.HoldsOf]
  | attr name test value =>
    have hname : name = "class" := ht
    subst hname
    refine ⟨target.any (·.hasClass value), by simp [tokenHolds], ?_⟩
    cases target <;> simp [Selector.Token.HoldsOf, hasClass_iff]
  | universal => exact absurd ht id
  | pseudoClass name argument => exact absurd ht id
  | pseudoElement name => exact absurd ht id
  | combinator which => exact absurd ht id

/-- A token without a test is reported. -/
theorem tokenHolds_of_untested (target : Option Element) {t : Token} (ht : ¬ t.HasTest) :
    tokenHolds target t = .error (.unsupported t) := by
  cases t with
  | tag name => exact absurd trivial ht
  | attr name test value =>
    have hname : name ≠ "class" := ht
    simp [tokenHolds, hname]
  | _ => rfl

/-- What one passes of a compound it passes of the first token and of the others. -/
theorem passes_cons {target : Option Element} {t : Token} {ts : Group} :
    Passes target (t :: ts) ↔ (∃ e, target = some e ∧ t.HoldsOf e) ∧ Passes target ts := by
  simp [Passes]

/-- A compound whose tokens all have a test is decided. -/
theorem compoundHolds_of_tests (target : Option Element) {c : Group}
    (hc : ∀ t ∈ c, t.HasTest) :
    ∃ b, compoundHolds target c = .ok b ∧ (b = true ↔ Passes target c) := by
  induction c with
  | nil => exact ⟨true, rfl, by simp [Passes]⟩
  | cons t ts ih =>
    rcases tokenHolds_of_hasTest target (hc t List.mem_cons_self) with ⟨b, hb, hiff⟩
    rcases ih fun u hu => hc u (List.mem_cons_of_mem _ hu) with ⟨b', hb', hiff'⟩
    cases b with
    | false =>
      -- the first token fails, and the others are not tested
      refine ⟨false, by simp [compoundHolds, hb], ?_⟩
      rw [passes_cons, ← hiff]
      simp
    | true =>
      refine ⟨b', by simp [compoundHolds, hb, hb'], ?_⟩
      rw [passes_cons, ← hiff, hiff']
      simp

/-- A compound with a token that has no test, where the tokens before it have one, fails
exactly where those before it are passed, and holds of nothing. -/
theorem compoundHolds_of_untested (target : Option Element) {passed : Group} (later : Group)
    {u : Token} (hp : ∀ t ∈ passed, t.HasTest) (hu : ¬ u.HasTest) :
    (Passes target passed →
      compoundHolds target (passed ++ u :: later) = .error (.unsupported u)) ∧
    (¬ Passes target passed → compoundHolds target (passed ++ u :: later) = .ok false) := by
  induction passed with
  | nil =>
    have hfail := tokenHolds_of_untested target hu
    exact ⟨fun _ => by simp [compoundHolds, hfail], fun h => absurd (by simp [Passes]) h⟩
  | cons t ts ih =>
    rcases tokenHolds_of_hasTest target (hp t List.mem_cons_self) with ⟨b, hb, hiff⟩
    have ih := ih fun u hu => hp u (List.mem_cons_of_mem _ hu)
    cases b with
    | false =>
      have hnot : ¬ Passes target (t :: ts) := by
        intro h
        exact absurd (hiff.2 (passes_cons.1 h).1) (by simp)
      exact ⟨fun h => absurd h hnot, fun _ => by simp [compoundHolds, hb]⟩
    | true =>
      -- the first token holds, so the others decide
      have hrest : Passes target (t :: ts) ↔ Passes target ts := by
        rw [passes_cons]
        exact and_iff_right (hiff.1 rfl)
      rw [hrest]
      simp only [List.cons_append, compoundHolds, hb]
      exact ih

end MarkupQuery

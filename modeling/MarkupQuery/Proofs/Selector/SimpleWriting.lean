import MarkupQuery.Proofs.Selector.SimpleReading
import MarkupQuery.Proofs.Text.Trimming
import MarkupQuery.Proofs.Text.Unaltered
import MarkupQuery.Selector.Printer

/-!
# MarkupQuery.Proofs.Selector.SimpleWriting — which simple selectors survive being written

A token is faithful (`Faithful`) if nothing is lost when it is written: a class or an id in
its short form has to be an identifier, and a quoted value must need no escape.

What survives is said by `WritesBack`. A sentence of the grammar whose value is faithful is a
sentence as it is written. And where a sentence stands in front of the text that is written
for its value, the two cannot differ: it is that text, character by character, and so its
value is faithful. The second half follows the grammar from the front, and needs to know of
each part where it starts and where it ends.
-/

namespace MarkupQuery.Selector.Grammar

open Reader

variable {α : Type}

/-! ## Faithful tokens -/

/-- The characters of a written token. -/
def tokenText (t : Token) : List Char :=
  t.render.toList

/-- The tests that are written in a short form, without quotes. -/
def HasShortForm (name : String) (test : AttributeTest) : Prop :=
  name = "class" ∧ test = .includes ∨ name = "id" ∧ test = .equals

instance (name : String) (test : AttributeTest) : Decidable (HasShortForm name test) :=
  inferInstanceAs (Decidable (_ ∨ _))

/-- Nothing is lost when the token is written: a value without quotes is an identifier, and a
quoted value needs no escape. -/
def Faithful : Token → Prop
  | .attr name test value =>
    if HasShortForm name test then Identifier value.toList value
    else test ≠ .present → Text.quoted value = "\"" ++ value ++ "\""
  | _ => True

/-- What is read as a whole is an identifier. -/
theorem identifier_eq_some_nil_iff {p : List Char} {s : String} :
    identifier p = some (s, []) ↔ Identifier p s := by
  constructor
  · intro hread
    obtain ⟨q, rfl, hq⟩ := identifier_readsLongest.sound hread
    rwa [List.append_nil]
  · intro hp
    have hread : identifier (p ++ []) = some (s, []) :=
      identifier_readsLongest.exact hp (by simp [EndsName])
    rwa [List.append_nil] at hread

instance (p : List Char) (s : String) : Decidable (Identifier p s) :=
  decidable_of_iff _ identifier_eq_some_nil_iff

instance : DecidablePred Faithful
  | .attr name test value =>
    inferInstanceAs (Decidable (if HasShortForm name test then Identifier value.toList value
      else test ≠ .present → Text.quoted value = "\"" ++ value ++ "\""))
  | .tag _ | .universal | .pseudoClass _ _ | .pseudoElement _ | .combinator _ =>
    inferInstanceAs (Decidable True)

/-- A text for each value of a language, and the values of which it is a sentence.
* A sentence with such a value stays one when its value is written (`written`).
* A sentence in front of the text of its value is that text (`aligned`). -/
structure WritesBack (L : Sentences α) (text : α → List Char) (ok : α → Prop) : Prop where
  written : ∀ {p : List Char} {a : α}, L p a → ok a → L (text a) a
  aligned : ∀ {p s tail : List Char} {a : α}, L p a → p ++ s = text a ++ tail →
    p = text a ∧ ok a

/-- A repetition is written back if each of its sentences is. -/
theorem WritesBack.repeated {L : Sentences α} {text : α → List Char} {ok : α → Prop}
    (h : WritesBack L text ok) :
    WritesBack L.Repeated (fun as => as.flatMap text) (fun as => ∀ a ∈ as, ok a) := by
  refine ⟨?_, ?_⟩
  · intro p as hp hok
    induction hp with
    | nil => exact .nil
    | cons ha _ ih =>
      rw [List.forall_mem_cons] at hok
      exact .cons (h.written ha hok.1) (ih hok.2)
  · intro p s tail as hp heq
    induction hp generalizing s with
    | nil => exact ⟨rfl, by simp⟩
    | @cons p q a as ha _ ih =>
      rw [List.flatMap_cons, List.append_assoc, List.append_assoc] at heq
      obtain ⟨rfl, hok⟩ := h.aligned ha heq
      obtain ⟨rfl, hoks⟩ := ih (List.append_cancel_left heq)
      exact ⟨rfl, List.forall_mem_cons.2 ⟨hok, hoks⟩⟩

/-! ## Conditions -/

theorem blanks_nil : Blanks [] := by
  simp [Blanks]

/-- There are no blanks in front of a character that is none. -/
theorem blanks_eq_nil {w t t' : List Char} {c : Char} (hw : Blanks w) (hc : isBlank c = false)
    (h : w ++ t = c :: t') : w = [] := by
  cases w with
  | nil => rfl
  | cons d w =>
    obtain ⟨rfl, -⟩ := List.cons.inj h
    rw [isBlank_iff.2 (hw d List.mem_cons_self)] at hc
    simp at hc

theorem Identifier.toList_eq {p : List Char} {s : String} (h : Identifier p s) :
    s.toList = p := by
  rw [h.eq_ofList, String.toList_ofList]

/-- An operator is written as it is read. -/
theorem Operator.text_eq {o : List Char} {test : AttributeTest} (h : Operator o test) :
    test.operator.toList = o ∧ test ≠ .present := by
  cases h <;> exact ⟨by simp [AttributeTest.operator], by decide⟩

/-- The characters of a written test behind the name of its attribute. -/
def conditionText (test : AttributeTest) (value : String) : List Char :=
  match test with
  | .present => []
  | _ => test.operator.toList ++ (Text.quoted value).toList

theorem conditionText_of_ne {test : AttributeTest} (h : test ≠ .present) (value : String) :
    conditionText test value =
      test.operator.toList ++ ('"' :: (value.toList.flatMap Text.escapeChar ++ ['"'])) := by
  unfold conditionText
  split
  · exact absurd rfl h
  · simp [Text.quoted]

/-- A test whose value needs no escape is a condition as it is written. -/
theorem condition_written {c : List Char} {test : AttributeTest} {value : String}
    (h : Condition c (test, value))
    (hok : test ≠ .present → Text.quoted value = "\"" ++ value ++ "\"") :
    Condition (conditionText test value) (test, value) := by
  cases h with
  | present => exact .present
  | @test o w v _ _ ho hw hv =>
    obtain ⟨hoperator, hne⟩ := ho.text_eq
    have hself := Text.quoted_eq_iff.1 (hok hne)
    have hfree := Text.ne_quote_of_flatMap_escapeChar_eq hself
    have hvalue := Value.doubleQuoted hfree
    rw [String.ofList_toList] at hvalue
    rw [conditionText_of_ne hne, hself, hoperator]
    exact .test (w := []) ho blanks_nil hvalue

/-- In front of a written test and a closing bracket stands no other condition for it. -/
theorem condition_aligned {v c w s tail : List Char} {test : AttributeTest} {value : String}
    (hv : Blanks v) (hc : Condition c (test, value)) (hw : Blanks w)
    (h : v ++ (c ++ (w ++ ']' :: s)) = conditionText test value ++ ']' :: tail) :
    v = [] ∧ c = conditionText test value ∧ w = [] ∧
      (test ≠ .present → Text.quoted value = "\"" ++ value ++ "\"") := by
  cases hc with
  | present =>
    obtain rfl := blanks_eq_nil hv (by decide) h
    obtain rfl := blanks_eq_nil hw (by decide) h
    exact ⟨rfl, rfl, rfl, fun hne => absurd rfl hne⟩
  | @test o u x _ _ ho hu hx =>
    obtain ⟨hoperator, hne⟩ := ho.text_eq
    rw [conditionText_of_ne hne, hoperator] at h ⊢
    -- no operator starts with a blank
    obtain rfl : v = [] := by
      cases ho <;> exact blanks_eq_nil hv (by decide) h
    simp only [List.nil_append, List.append_assoc, List.append_cancel_left_eq] at h
    obtain rfl := blanks_eq_nil hu (by decide) h
    cases hx with
    | @doubleQuoted x hfree =>
      simp only [List.nil_append, List.cons_append, List.append_assoc, List.cons.injEq,
        true_and] at h
      -- the value ends at the first quote of what is written
      have hread := before_eq_some_iff.2 ⟨h.symm, hfree⟩
      rw [String.toList_ofList] at hread ⊢
      obtain ⟨hself, hrest⟩ := Text.flatMap_escapeChar_eq_of_before hread
      obtain rfl := blanks_eq_nil hw (by decide) hrest
      refine ⟨rfl, by rw [hself]; rfl, rfl, fun _ => ?_⟩
      rw [Text.quoted_eq_iff, String.toList_ofList]
      exact hself
    | singleQuoted _ => simp at h
    | bare hid =>
      obtain ⟨d, q, rfl, hd⟩ := hid.head
      simp only [List.nil_append, List.cons_append, List.cons.injEq] at h
      obtain ⟨rfl, -⟩ := h
      exact absurd hd (by decide)

/-! ## Simple selectors -/

/-- A test without a short form is written between brackets. -/
theorem tokenText_attr {name : String} {test : AttributeTest} (h : ¬ HasShortForm name test)
    (value : String) : tokenText (.attr name test value) =
      '[' :: (name.toList ++ (conditionText test value ++ [']'])) := by
  simp only [HasShortForm, not_or] at h
  simp only [tokenText, Token.render, if_neg h.1, if_neg h.2, renderTest, conditionText]
  split <;> simp

/-- A test with a short form is not written between brackets. -/
theorem tokenText_short {name : String} {test : AttributeTest} (h : HasShortForm name test)
    (value : String) : tokenText (.attr name test value) = '.' :: value.toList ∨
      tokenText (.attr name test value) = '#' :: value.toList := by
  rcases h with ⟨rfl, rfl⟩ | ⟨rfl, rfl⟩
  · left
    simp [tokenText, Token.render]
  · right
    simp [tokenText, Token.render]

/-- A class is written as it is read if it is an identifier. -/
theorem tokenText_class {p : List Char} {name : String} (h : Identifier p name) :
    tokenText (.attr "class" .includes name) = '.' :: p := by
  simp [tokenText, Token.render, h.toList_eq]

/-- An id is written as it is read if it is an identifier. -/
theorem tokenText_id {p : List Char} {name : String} (h : Identifier p name) :
    tokenText (.attr "id" .equals name) = '#' :: p := by
  simp [tokenText, Token.render, h.toList_eq]

theorem tokenText_pseudoElement {p : List Char} {name : String} (h : Identifier p name) :
    tokenText (.pseudoElement name) = ':' :: ':' :: p := by
  simp [tokenText, Token.render, h.toList_eq]

theorem tokenText_pseudoClass {p : List Char} {name : String} (h : Identifier p name) :
    tokenText (.pseudoClass name none) = ':' :: p := by
  simp [tokenText, Token.render, h.toList_eq]

theorem tokenText_pseudoClassOf {p : List Char} {name : String} (h : Identifier p name)
    (argument : String) : tokenText (.pseudoClass name (some argument)) =
      ':' :: (p ++ '(' :: (argument.toList ++ [')'])) := by
  simp [tokenText, Token.render, h.toList_eq]

/-- An identifier with a short form is faithful. -/
theorem faithful_short {p : List Char} {name value : String} {test : AttributeTest}
    (h : HasShortForm name test) (hid : Identifier p value) :
    Faithful (.attr name test value) := by
  rw [Faithful, if_pos h, hid.toList_eq]
  exact hid

/-- What has a short form is a selector as it is written if it is an identifier. -/
theorem simple_short {p : List Char} {name value : String} {test : AttributeTest}
    (h : HasShortForm name test) (hid : Identifier p value) :
    Simple (tokenText (.attr name test value)) (.attr name test value) := by
  rcases h with ⟨rfl, rfl⟩ | ⟨rfl, rfl⟩
  · rw [tokenText_class hid]
    exact .ofClass hid
  · rw [tokenText_id hid]
    exact .ofId hid

/-- A test between brackets is a selector as it is written. -/
theorem bracketed_written {p c : List Char} {name value : String} {test : AttributeTest}
    (hid : Identifier p name) (hc : Condition c (test, value))
    (hok : Faithful (.attr name test value)) :
    Simple (tokenText (.attr name test value)) (.attr name test value) := by
  by_cases hshort : HasShortForm name test
  · rw [Faithful, if_pos hshort] at hok
    exact simple_short hshort hok
  · rw [Faithful, if_neg hshort] at hok
    have hwritten :=
      Simple.bracketed blanks_nil hid blanks_nil (condition_written hc hok) blanks_nil
    rw [tokenText_attr hshort, hid.toList_eq]
    simpa using hwritten

/-- In front of a written test between brackets stands no other selector for it. -/
theorem bracketed_aligned {u v w p c s tail : List Char} {name value : String}
    {test : AttributeTest} (hu : Blanks u) (hid : Identifier p name) (hv : Blanks v)
    (hc : Condition c (test, value)) (hw : Blanks w)
    (h : '[' :: (u ++ (p ++ (v ++ (c ++ (w ++ [']']))))) ++ s =
      tokenText (.attr name test value) ++ tail) :
    '[' :: (u ++ (p ++ (v ++ (c ++ (w ++ [']']))))) = tokenText (.attr name test value) ∧
      Faithful (.attr name test value) := by
  by_cases hshort : HasShortForm name test
  · -- no short form starts with a bracket
    rcases tokenText_short hshort value with htext | htext <;> simp [htext] at h
  · rw [tokenText_attr hshort, hid.toList_eq] at h ⊢
    rw [Faithful, if_neg hshort]
    simp only [List.cons_append, List.append_assoc, List.nil_append, List.cons.injEq,
      true_and] at h
    obtain ⟨d, q, rfl, hd⟩ := (Value.bare hid).head
    obtain rfl := blanks_eq_nil hu hd h
    have hbehind : v ++ (c ++ (w ++ ']' :: s)) = conditionText test value ++ ']' :: tail := by
      simpa using h
    obtain ⟨rfl, rfl, rfl, hself⟩ := condition_aligned hv hc hw hbehind
    exact ⟨rfl, hself⟩

/-- In front of a written argument stands no other argument with the same text: trimming took
nothing away from it. -/
theorem argument_aligned {arg s tail : List Char} (hfree : ∀ c ∈ arg, c ≠ ')')
    (h : arg ++ ')' :: s = Text.trimChars arg ++ ')' :: tail) : arg = Text.trimChars arg := by
  have htrimmed : ∀ c ∈ Text.trimChars arg, c ≠ ')' :=
    fun c hc => hfree c (Text.mem_of_mem_trimChars hc)
  have hread : before ')' (arg ++ ')' :: s) = some (arg, s) := before_eq_some_iff.2 ⟨rfl, hfree⟩
  rw [before_eq_some_iff.2 ⟨h, htrimmed⟩] at hread
  simp only [Option.some.injEq, Prod.mk.injEq] at hread
  exact hread.1.symm

/-- Simple selectors are written back. -/
theorem simple_writesBack : WritesBack Simple tokenText Faithful := by
  refine ⟨?_, ?_⟩
  · intro p t hp hok
    cases hp with
    | ofClass hid => exact simple_short (.inl ⟨rfl, rfl⟩) hid
    | ofId hid => exact simple_short (.inr ⟨rfl, rfl⟩) hid
    | pseudoElement hid =>
      rw [tokenText_pseudoElement hid]
      exact .pseudoElement hid
    | pseudoClass hid =>
      rw [tokenText_pseudoClass hid]
      exact .pseudoClass hid
    | @pseudoClassOf p arg name hid hfree =>
      have hargument : ∀ c ∈ (Text.trim (String.ofList arg)).toList, c ≠ ')' := by
        intro c hc
        rw [Text.trim, String.toList_ofList, String.toList_ofList] at hc
        exact hfree c (Text.mem_of_mem_trimChars hc)
      have hwritten := Simple.pseudoClassOf hid hargument
      rw [String.ofList_toList, Text.trim_trim] at hwritten
      rw [tokenText_pseudoClassOf hid]
      exact hwritten
    | bracketed _ hid _ hc _ => exact bracketed_written hid hc hok
  · intro p s tail t hp heq
    cases hp with
    | ofClass hid => exact ⟨(tokenText_class hid).symm, faithful_short (.inl ⟨rfl, rfl⟩) hid⟩
    | ofId hid => exact ⟨(tokenText_id hid).symm, faithful_short (.inr ⟨rfl, rfl⟩) hid⟩
    | pseudoElement hid => exact ⟨(tokenText_pseudoElement hid).symm, trivial⟩
    | pseudoClass hid => exact ⟨(tokenText_pseudoClass hid).symm, trivial⟩
    | @pseudoClassOf p arg name hid hfree =>
      rw [tokenText_pseudoClassOf hid, Text.trim, String.toList_ofList,
        String.toList_ofList] at heq ⊢
      simp only [List.cons_append, List.append_assoc, List.cons.injEq, List.append_cancel_left_eq,
        true_and, List.nil_append] at heq
      rw [← argument_aligned hfree heq]
      exact ⟨rfl, trivial⟩
    | bracketed hu hid hv hc hw => exact bracketed_aligned hu hid hv hc hw heq

/-- A written simple selector starts with one of four characters, also where it is not
faithful. -/
theorem Simple.text_head {p : List Char} {t : Token} (h : Simple p t) :
    ∃ c q, tokenText t = c :: q ∧ (c = '.' ∨ c = '#' ∨ c = '[' ∨ c = ':') := by
  cases h with
  | ofClass hid => exact ⟨_, _, tokenText_class hid, by decide⟩
  | ofId hid => exact ⟨_, _, tokenText_id hid, by decide⟩
  | pseudoElement hid => exact ⟨_, _, tokenText_pseudoElement hid, by decide⟩
  | pseudoClass hid => exact ⟨_, _, tokenText_pseudoClass hid, by decide⟩
  | pseudoClassOf hid _ => exact ⟨_, _, tokenText_pseudoClassOf hid _, by decide⟩
  | @bracketed _ _ _ _ _ name test value =>
    by_cases hshort : HasShortForm name test
    · rcases tokenText_short hshort value with htext | htext <;> exact ⟨_, _, htext, by decide⟩
    · exact ⟨_, _, tokenText_attr hshort value, by decide⟩

end MarkupQuery.Selector.Grammar

import Mathlib.Data.List.TakeWhile
import MarkupQuery.Proofs.Selector.Grammar
import MarkupQuery.Selector.Simple

/-!
# MarkupQuery.Proofs.Selector.SimpleReading — the parts of a compound are read longest

Identifiers, values, conditions and simple selectors are read as their grammar says. An
identifier goes on as long as there are characters for it (`EndsName`); a pseudo-class may
also go on with an argument (`EndsSimple`). What stands between brackets is closed and
is read the same whatever follows.
-/

namespace MarkupQuery.Selector.Grammar

open Reader

/-! ## Blanks -/

/-- The blanks of the grammar are those that are skipped. -/
theorem isBlank_iff {c : Char} :
    isBlank c = true ↔ c = ' ' ∨ c = '\t' ∨ c = '\r' ∨ c = '\n' := by
  simp [isBlank, or_assoc]

/-- Blanks in front of a text are skipped. -/
theorem skipBlanks_append {w : List Char} (hw : Blanks w) (t : List Char) :
    skipBlanks (w ++ t) = skipBlanks t :=
  List.dropWhile_append_of_pos fun c hc => isBlank_iff.2 (hw c hc)

/-- What is skipped in front of a text are blanks. -/
theorem exists_blanks (cs : List Char) : ∃ w, cs = w ++ skipBlanks cs ∧ Blanks w := by
  refine ⟨cs.takeWhile isBlank, List.takeWhile_append_dropWhile.symm, ?_⟩
  intro c hc
  exact isBlank_iff.1 (List.mem_takeWhile_imp hc)

/-- Nothing is skipped in front of a character that is no blank. -/
theorem skipBlanks_cons {c : Char} (hc : isBlank c = false) (cs : List Char) :
    skipBlanks (c :: cs) = c :: cs := by
  simp [skipBlanks, hc]

/-! ## Identifiers -/

/-- No character that could go on an identifier stands at the front. -/
def EndsName (t : List Char) : Prop :=
  ∀ c ∈ t.head?, ¬ NameRest c

theorem isNameStart_iff {c : Char} : isNameStart c = true ↔ NameStart c := by
  simp [isNameStart, NameStart, or_assoc]

theorem isNameChar_iff {c : Char} : isNameChar c = true ↔ NameRest c := by
  simp [isNameChar, NameRest, isNameStart_iff, or_assoc]

/-- No blank is in an identifier. -/
theorem not_nameRest_of_blank {c : Char} (hc : isBlank c = true) : ¬ NameRest c := by
  rcases isBlank_iff.1 hc with rfl | rfl | rfl | rfl <;> decide

/-- Behind the first character of an identifier as many are taken as can go on it. -/
theorem bareIdentifier_append {start : Char} {name : List Char} (hs : NameStart start)
    (hn : ∀ c ∈ name, NameRest c) (tail : List Char) :
    bareIdentifier (start :: (name ++ tail)) =
      some (start :: (name ++ tail.takeWhile isNameChar), tail.dropWhile isNameChar) := by
  have hpass : ∀ c ∈ name, isNameChar c = true := fun c hc => isNameChar_iff.2 (hn c hc)
  simp [bareIdentifier, isNameStart_iff.2 hs, List.takeWhile_append_of_pos hpass,
    List.dropWhile_append_of_pos hpass]

/-- A bare identifier starts with a character that can start one. -/
theorem bareIdentifier_sound {cs rest name : List Char}
    (h : bareIdentifier cs = some (name, rest)) :
    ∃ start more, name = start :: more ∧ cs = name ++ rest ∧ NameStart start ∧
      ∀ c ∈ more, NameRest c := by
  cases cs with
  | nil => simp [bareIdentifier] at h
  | cons c cs =>
    simp only [bareIdentifier] at h
    split at h
    · rename_i hc
      simp only [Option.some.injEq, Prod.mk.injEq] at h
      rcases h with ⟨rfl, rfl⟩
      refine ⟨c, _, rfl, by simp [List.takeWhile_append_dropWhile], isNameStart_iff.1 hc, ?_⟩
      intro d hd
      exact isNameChar_iff.1 (List.mem_takeWhile_imp hd)
    · simp at h

/-- A dash starts no name. -/
theorem ne_dash_of_nameStart {c : Char} (hc : NameStart c) : c ≠ '-' := by
  rintro rfl
  exact absurd hc (by decide)

/-- In front of any text an identifier is read together with what can go on it there. -/
theorem identifier_append {p : List Char} {s : String} (h : Identifier p s)
    (tail : List Char) :
    identifier (p ++ tail) =
      some (String.ofList (p ++ tail.takeWhile isNameChar), tail.dropWhile isNameChar) := by
  cases h with
  | @plain start name hs hn =>
    have hbare := bareIdentifier_append hs hn tail
    unfold identifier
    split
    · -- no dash: a dash starts no name
      rename_i heq
      simp only [List.cons_append, List.cons.injEq] at heq
      exact absurd heq.1 (ne_dash_of_nameStart hs)
    · rw [List.cons_append, mapValue_eq_some_iff]
      exact ⟨_, hbare, rfl⟩
  | @dashed start name hs hn =>
    have hbare := bareIdentifier_append hs hn tail
    simp only [List.cons_append, identifier]
    rw [mapValue_eq_some_iff]
    exact ⟨_, hbare, rfl⟩

/-- The value of an identifier is how it is written. -/
theorem Identifier.eq_ofList {p : List Char} {s : String} (h : Identifier p s) :
    s = String.ofList p := by
  cases h <;> rfl

/-- Identifiers are read longest. -/
theorem identifier_readsLongest : ReadsLongest identifier Identifier EndsName := by
  refine ⟨?_, ?_⟩
  · intro cs rest s h
    unfold identifier at h
    split at h
    · rcases mapValue_eq_some_iff.1 h with ⟨name, hname, rfl⟩
      rcases bareIdentifier_sound hname with ⟨start, more, rfl, rfl, hs, hm⟩
      exact ⟨_, rfl, .dashed hs hm⟩
    · rcases mapValue_eq_some_iff.1 h with ⟨name, hname, rfl⟩
      rcases bareIdentifier_sound hname with ⟨start, more, rfl, rfl, hs, hm⟩
      exact ⟨_, rfl, .plain hs hm⟩
  · intro p s tail hp
    refine ⟨_, _, identifier_append hp tail, List.dropWhile_suffix _, ?_, ?_⟩
    · -- the whole tail is left, so no character of it was taken
      intro hrest
      have htake : tail.takeWhile isNameChar = [] := by
        have hsplit := List.takeWhile_append_dropWhile (p := isNameChar) (l := tail)
        rw [hrest] at hsplit
        simpa using hsplit
      rw [htake, List.append_nil, hp.eq_ofList]
    · intro hends
      cases tail with
      | nil => rfl
      | cons c cs =>
        have hc : isNameChar c = false := by
          rw [Bool.eq_false_iff]
          exact fun h => hends c rfl (isNameChar_iff.1 h)
        simp [hc]

/-- An identifier consists of characters of names. -/
theorem Identifier.nameRest {p : List Char} {s : String} (h : Identifier p s) :
    ∀ c ∈ p, NameRest c := by
  cases h with
  | plain hs hn =>
    intro c hc
    rcases List.mem_cons.1 hc with rfl | hc
    · exact .inl hs
    · exact hn c hc
  | dashed hs hn =>
    intro c hc
    simp only [List.mem_cons] at hc
    rcases hc with rfl | rfl | hc
    · decide
    · exact .inl hs
    · exact hn c hc

/-- An identifier is not empty. -/
theorem Identifier.head {p : List Char} {s : String} (h : Identifier p s) :
    ∃ c q, p = c :: q ∧ NameRest c := by
  have hrest := h.nameRest
  cases h with
  | plain _ _ => exact ⟨_, _, rfl, hrest _ List.mem_cons_self⟩
  | dashed _ _ => exact ⟨_, _, rfl, hrest _ List.mem_cons_self⟩

/-- Where no character of a name stands at the front there is no identifier. -/
theorem identifier_eq_none {t : List Char} (ht : EndsName t) : identifier t = none := by
  rw [identifier_readsLongest.eq_none_iff]
  rintro p s ⟨tail, rfl⟩ hp
  obtain ⟨c, q, rfl, hc⟩ := hp.head
  exact ht c rfl hc

/-! ## Values and conditions -/

/-- A character that is in no identifier ends one. -/
theorem endsName_cons {c : Char} {t : List Char} (hc : ¬ NameRest c) : EndsName (c :: t) := by
  intro d hd
  cases hd
  exact hc

/-- Values are read longest. -/
theorem testValue_readsLongest : ReadsLongest testValue Value EndsName := by
  refine ⟨?_, ?_⟩
  · intro cs rest s h
    unfold testValue at h
    split at h
    · rcases mapValue_eq_some_iff.1 h with ⟨v, hv, rfl⟩
      rcases before_eq_some_iff.1 hv with ⟨rfl, hfree⟩
      exact ⟨_, by simp, .doubleQuoted hfree⟩
    · rcases mapValue_eq_some_iff.1 h with ⟨v, hv, rfl⟩
      rcases before_eq_some_iff.1 hv with ⟨rfl, hfree⟩
      exact ⟨_, by simp, .singleQuoted hfree⟩
    · rcases identifier_readsLongest.sound h with ⟨p, rfl, hp⟩
      exact ⟨p, rfl, .bare hp⟩
  · intro p s tail hp
    cases hp with
    | @doubleQuoted v hfree =>
      refine ⟨_, tail, ?_, List.suffix_refl _, fun _ => rfl, fun _ => rfl⟩
      simp only [testValue, List.cons_append, List.append_assoc, List.nil_append]
      exact mapValue_eq_some_iff.2 ⟨v, before_eq_some_iff.2 ⟨rfl, hfree⟩, rfl⟩
    | @singleQuoted v hfree =>
      refine ⟨_, tail, ?_, List.suffix_refl _, fun _ => rfl, fun _ => rfl⟩
      simp only [testValue, List.cons_append, List.append_assoc, List.nil_append]
      exact mapValue_eq_some_iff.2 ⟨v, before_eq_some_iff.2 ⟨rfl, hfree⟩, rfl⟩
    | bare hid =>
      have hreach := identifier_readsLongest.reach tail hid
      have hsame : testValue (p ++ tail) = identifier (p ++ tail) := by
        -- no identifier starts with a quote
        rcases hid.head with ⟨c, q, rfl, hc⟩
        unfold testValue
        split
        · rename_i heq
          simp only [List.cons_append, List.cons.injEq] at heq
          rcases heq with ⟨rfl, -⟩
          exact absurd hc (by decide)
        · rename_i heq
          simp only [List.cons_append, List.cons.injEq] at heq
          rcases heq with ⟨rfl, -⟩
          exact absurd hc (by decide)
        · rfl
      rw [hsame]
      exact hreach

/-- An operator is read whatever follows. -/
theorem operator_append {o : List Char} {test : AttributeTest} (h : Operator o test)
    (tail : List Char) : operator (o ++ tail) = some (test, tail) := by
  cases h <;> rfl

/-- What is read as an operator is one. -/
theorem operator_sound {cs rest : List Char} {test : AttributeTest}
    (h : operator cs = some (test, rest)) : ∃ o, cs = o ++ rest ∧ Operator o test := by
  unfold operator at h
  split at h
  case h_8 => simp at h
  all_goals
    simp only [Option.some.injEq, Prod.mk.injEq] at h
    rcases h with ⟨rfl, rfl⟩
  · exact ⟨_, rfl, .includes⟩
  · exact ⟨_, rfl, .dashMatch⟩
  · exact ⟨_, rfl, .startsWith⟩
  · exact ⟨_, rfl, .endsWith⟩
  · exact ⟨_, rfl, .contains⟩
  · exact ⟨_, rfl, .differs⟩
  · exact ⟨_, rfl, .equals⟩

/-- A value starts with a character that is no blank. -/
theorem Value.head {v : List Char} {s : String} (h : Value v s) :
    ∃ c q, v = c :: q ∧ isBlank c = false := by
  cases h with
  | doubleQuoted _ => exact ⟨_, _, rfl, rfl⟩
  | singleQuoted _ => exact ⟨_, _, rfl, rfl⟩
  | bare hid =>
    rcases hid.head with ⟨c, q, rfl, hc⟩
    refine ⟨c, q, rfl, ?_⟩
    rw [Bool.eq_false_iff]
    intro hb
    exact not_nameRest_of_blank hb hc

/-- In front of blanks and a closing bracket a condition is read exactly, but for blanks. -/
theorem conditionOrPresent_append {c w : List Char} {answer : AttributeTest × String}
    (hc : Condition c answer) (hw : Blanks w) (tail : List Char) :
    ∃ rest, conditionOrPresent (skipBlanks (c ++ (w ++ ']' :: tail))) = (answer, rest) ∧
      skipBlanks rest = ']' :: tail := by
  have hclose : skipBlanks (w ++ ']' :: tail) = ']' :: tail := by
    rw [skipBlanks_append hw]
    rfl
  cases hc with
  | present =>
    refine ⟨']' :: tail, ?_, rfl⟩
    rw [List.nil_append, hclose]
    rfl
  | @test o u v test value ho hu hv =>
    refine ⟨w ++ ']' :: tail, ?_, hclose⟩
    rw [List.append_assoc, List.append_assoc]
    have hskip : skipBlanks (o ++ (u ++ (v ++ (w ++ ']' :: tail)))) =
        o ++ (u ++ (v ++ (w ++ ']' :: tail))) := by
      -- no operator starts with a blank
      cases ho <;> rfl
    have hvalue : testValue (skipBlanks (u ++ (v ++ (w ++ ']' :: tail)))) =
        some (value, w ++ ']' :: tail) := by
      rw [skipBlanks_append hu]
      have hends : EndsName (w ++ ']' :: tail) := by
        cases w with
        | nil => exact endsName_cons (by decide)
        | cons d w =>
          exact endsName_cons (not_nameRest_of_blank (isBlank_iff.2 (hw d List.mem_cons_self)))
      have hexact := testValue_readsLongest.exact hv hends
      rcases hv.head with ⟨d, q, rfl, hd⟩
      rw [List.cons_append, skipBlanks_cons hd]
      exact hexact
    have hcond : condition (o ++ (u ++ (v ++ (w ++ ']' :: tail)))) =
        some ((test, value), w ++ ']' :: tail) := by
      simp only [condition, operator_append ho]
      exact mapValue_eq_some_iff.2 ⟨value, hvalue, rfl⟩
    rw [hskip, conditionOrPresent, hcond]

/-- What is read as a condition is one. -/
theorem conditionOrPresent_sound {cs rest : List Char} {answer : AttributeTest × String}
    (h : conditionOrPresent cs = (answer, rest)) : ∃ c, cs = c ++ rest ∧ Condition c answer := by
  unfold conditionOrPresent at h
  split at h
  · rename_i answer' hcond
    subst h
    unfold condition at hcond
    split at hcond
    · simp at hcond
    · rename_i test tail hop
      rcases operator_sound hop with ⟨o, rfl, ho⟩
      rcases mapValue_eq_some_iff.1 hcond with ⟨value, hvalue, rfl⟩
      rcases exists_blanks tail with ⟨u, htail, hu⟩
      rcases testValue_readsLongest.sound hvalue with ⟨v, hsplit, hv⟩
      refine ⟨o ++ (u ++ v), ?_, .test ho hu hv⟩
      rw [List.append_assoc, List.append_assoc, ← hsplit, ← htail]
  · simp only [Prod.mk.injEq] at h
    rcases h with ⟨rfl, rfl⟩
    exact ⟨[], rfl, .present⟩

/-! ## Simple selectors -/

/-- Nothing that could go on a simple selector stands at the front. -/
def EndsSimple (t : List Char) : Prop :=
  ∀ c ∈ t.head?, ¬ NameRest c ∧ c ≠ '('

theorem EndsSimple.endsName {t : List Char} (h : EndsSimple t) : EndsName t :=
  fun c hc => (h c hc).1

/-- The rest of the test of an attribute is read exactly. -/
theorem bracketRest_append {u p v c w : List Char} {name : String} {test : AttributeTest}
    {value : String} (hu : Blanks u) (hp : Identifier p name) (hv : Blanks v)
    (hc : Condition c (test, value)) (hw : Blanks w) (tail : List Char) :
    bracketRest (u ++ (p ++ (v ++ (c ++ (w ++ ']' :: tail))))) =
      some (.attr name test value, tail) := by
  -- behind the name stands a blank, an operator or the bracket, whichever comes first
  have hends : EndsName (v ++ (c ++ (w ++ ']' :: tail))) := by
    cases v with
    | cons d v =>
      exact endsName_cons (not_nameRest_of_blank (isBlank_iff.2 (hv d List.mem_cons_self)))
    | nil =>
      cases hc with
      | test ho _ _ => cases ho <;> exact endsName_cons (by decide)
      | present =>
        cases w with
        | nil => exact endsName_cons (by decide)
        | cons d w =>
          exact endsName_cons (not_nameRest_of_blank (isBlank_iff.2 (hw d List.mem_cons_self)))
  have hname : identifier (skipBlanks (u ++ (p ++ (v ++ (c ++ (w ++ ']' :: tail)))))) =
      some (name, v ++ (c ++ (w ++ ']' :: tail))) := by
    have hexact := identifier_readsLongest.exact hp hends
    rcases (Value.bare hp).head with ⟨d, q, rfl, hd⟩
    rw [skipBlanks_append hu, List.cons_append, skipBlanks_cons hd]
    exact hexact
  rcases conditionOrPresent_append hc hw tail with ⟨rest, hcond, hrest⟩
  simp only [bracketRest, hname, skipBlanks_append hv, hcond, hrest]

/-- What is read behind an opening bracket is the rest of the test of an attribute. -/
theorem bracketRest_sound {cs rest : List Char} {t : Token}
    (h : bracketRest cs = some (t, rest)) : ∃ p, cs = p ++ rest ∧ Simple ('[' :: p) t := by
  unfold bracketRest at h
  split at h
  · simp at h
  · rename_i name middle hname
    split at h
    rename_i test value tail hcond
    split at h
    · rename_i rest' hclose
      simp only [Option.some.injEq, Prod.mk.injEq] at h
      rcases h with ⟨rfl, rfl⟩
      rcases exists_blanks cs with ⟨u, hcs, hu⟩
      rcases identifier_readsLongest.sound hname with ⟨p, hp, hid⟩
      rcases exists_blanks middle with ⟨v, hmiddle, hv⟩
      rcases conditionOrPresent_sound hcond with ⟨c, hc, hcondition⟩
      rcases exists_blanks tail with ⟨w, htail, hw⟩
      refine ⟨_, ?_, .bracketed hu hid hv hcondition hw⟩
      rw [hcs, hp, hmiddle, hc, htail, hclose]
      simp
    · simp at h

/-- What is read behind a colon is the rest of a pseudo-class. -/
theorem pseudoClassRest_sound {cs rest : List Char} {t : Token}
    (h : pseudoClassRest cs = some (t, rest)) : ∃ p, cs = p ++ rest ∧ Simple (':' :: p) t := by
  unfold pseudoClassRest at h
  split at h
  · simp at h
  · rename_i name middle hname
    rcases identifier_readsLongest.sound hname with ⟨p, rfl, hp⟩
    split at h
    · rename_i arg rest' harg
      simp only [Option.some.injEq, Prod.mk.injEq] at h
      rcases h with ⟨rfl, rfl⟩
      unfold argument at harg
      split at harg
      · rcases before_eq_some_iff.1 harg with ⟨rfl, hfree⟩
        refine ⟨_, ?_, by simpa [Text.trim] using Simple.pseudoClassOf hp hfree⟩
        simp
      · simp at harg
    · simp only [Option.some.injEq, Prod.mk.injEq] at h
      rcases h with ⟨rfl, rfl⟩
      exact ⟨p, rfl, .pseudoClass hp⟩

/-- Behind a colon that no second follows stands the rest of a pseudo-class. -/
theorem simple_colon {p : List Char} {name : String} (hp : Identifier p name)
    (tail : List Char) : simple (':' :: (p ++ tail)) = pseudoClassRest (p ++ tail) := by
  rcases hp.head with ⟨c, q, rfl, hc⟩
  unfold simple
  split
  case h_4 heq =>
    simp only [List.cons_append, List.cons.injEq, true_and] at heq
    rcases heq with ⟨rfl, -⟩
    exact absurd hc (by decide)
  case h_5 heq =>
    simp only [List.cons.injEq, true_and] at heq
    rw [heq]
  all_goals simp_all

/-- Without an argument a pseudo-class is read longest: it takes one if there is one. -/
theorem pseudoClassRest_reach {p : List Char} {name : String} (hp : Identifier p name)
    (tail : List Char) :
    ∃ b rest, pseudoClassRest (p ++ tail) = some (b, rest) ∧ rest <:+ tail ∧
      (rest = tail → b = .pseudoClass name none) ∧ (EndsSimple tail → rest = tail) := by
  rcases identifier_readsLongest.reach tail hp with ⟨s, middle, hread, hmiddle, hvalue, hstop⟩
  cases harg : argument middle with
  | none =>
    have hnone : pseudoClassRest (p ++ tail) = some (.pseudoClass s none, middle) := by
      simp only [pseudoClassRest, hread, harg]
    refine ⟨_, _, hnone, hmiddle, ?_, fun h => hstop h.endsName⟩
    intro heq
    rw [hvalue heq]
  | some answer =>
    -- an argument is taken as well, so less than the tail is left
    rcases answer with ⟨arg, rest⟩
    have hc := argument_consumes _ _ _ harg
    have hlt : rest.length < tail.length := Nat.lt_of_lt_of_le hc.2 hmiddle.length_le
    have hsome : pseudoClassRest (p ++ tail) =
        some (.pseudoClass s (some (String.ofList (Text.trimChars arg))), rest) := by
      simp only [pseudoClassRest, hread, harg]
    refine ⟨_, _, hsome, hc.1.trans hmiddle, ?_, ?_⟩
    · rintro rfl
      omega
    · intro hends
      have heq := hstop hends.endsName
      subst heq
      unfold argument at harg
      split at harg
      · exact absurd rfl (hends '(' rfl).2
      · simp at harg

/-- What is an identifier behind its first characters is read longest. -/
theorem named_reach (f : String → Token) {p : List Char} {name : String}
    (hp : Identifier p name) (tail : List Char) :
    ∃ b rest, mapValue f identifier (p ++ tail) = some (b, rest) ∧ rest <:+ tail ∧
      (rest = tail → b = f name) ∧ (EndsSimple tail → rest = tail) := by
  obtain ⟨b, rest, hread, hrest, hvalue, hstop⟩ :=
    (identifier_readsLongest.mapValue f).reach tail ⟨name, hp, rfl⟩
  exact ⟨b, rest, hread, hrest, hvalue, fun h => hstop h.endsName⟩

/-- Simple selectors are read longest. -/
theorem simple_readsLongest : ReadsLongest simple Simple EndsSimple := by
  refine ⟨?_, ?_⟩
  · intro cs rest t h
    unfold simple at h
    split at h
    · rcases mapValue_eq_some_iff.1 h with ⟨name, hname, rfl⟩
      rcases identifier_readsLongest.sound hname with ⟨p, rfl, hp⟩
      exact ⟨_, rfl, .ofClass hp⟩
    · rcases mapValue_eq_some_iff.1 h with ⟨name, hname, rfl⟩
      rcases identifier_readsLongest.sound hname with ⟨p, rfl, hp⟩
      exact ⟨_, rfl, .ofId hp⟩
    · rcases bracketRest_sound h with ⟨p, rfl, hp⟩
      exact ⟨_, rfl, hp⟩
    · rcases mapValue_eq_some_iff.1 h with ⟨name, hname, rfl⟩
      rcases identifier_readsLongest.sound hname with ⟨p, rfl, hp⟩
      exact ⟨_, rfl, .pseudoElement hp⟩
    · rcases pseudoClassRest_sound h with ⟨p, rfl, hp⟩
      exact ⟨_, rfl, hp⟩
    · simp at h
  · intro p t tail hp
    cases hp with
    | ofClass hid => exact named_reach Token.ofClass hid tail
    | ofId hid => exact named_reach Token.ofId hid tail
    | pseudoElement hid => exact named_reach Token.pseudoElement hid tail
    | pseudoClass hid =>
      rw [List.cons_append, simple_colon hid]
      exact pseudoClassRest_reach hid tail
    | @pseudoClassOf q arg name hid hfree =>
      -- the parenthesis is closed, so nothing of the tail can go on the selector
      refine ⟨_, tail, ?_, List.suffix_refl _, fun _ => rfl, fun _ => rfl⟩
      have hname : identifier (q ++ '(' :: (arg ++ ')' :: tail)) =
          some (name, '(' :: (arg ++ ')' :: tail)) :=
        identifier_readsLongest.exact hid (endsName_cons (by decide))
      have harg : argument ('(' :: (arg ++ ')' :: tail)) = some (arg, tail) :=
        before_eq_some_iff.2 ⟨rfl, hfree⟩
      simp only [List.cons_append, List.append_assoc, List.nil_append]
      rw [simple_colon hid, pseudoClassRest, hname]
      simp only [harg, Text.trim, String.toList_ofList]
    | bracketed hu hid hv hc hw =>
      -- nor can it here, where the bracket is closed
      refine ⟨_, tail, ?_, List.suffix_refl _, fun _ => rfl, fun _ => rfl⟩
      simp only [simple, List.cons_append, List.append_assoc, List.nil_append]
      exact bracketRest_append hu hid hv hc hw tail

/-- A simple selector starts with one of four characters. -/
theorem Simple.head {p : List Char} {t : Token} (h : Simple p t) :
    ∃ c q, p = c :: q ∧ (c = '.' ∨ c = '#' ∨ c = '[' ∨ c = ':') := by
  cases h <;> exact ⟨_, _, rfl, by decide⟩

/-- Where none of the four characters stands at the front there is no simple selector. -/
theorem simple_eq_none {t : List Char}
    (ht : ∀ c ∈ t.head?, c ≠ '.' ∧ c ≠ '#' ∧ c ≠ '[' ∧ c ≠ ':') : simple t = none := by
  rw [simple_readsLongest.eq_none_iff]
  rintro p s ⟨tail, rfl⟩ hp
  obtain ⟨c, q, rfl, hc⟩ := hp.head
  have hne := ht c rfl
  rcases hc with rfl | rfl | rfl | rfl <;> simp at hne

end MarkupQuery.Selector.Grammar

import MarkupQuery.CommandLine.Run
import MarkupQuery.Proofs.Matching.Outermost
import MarkupQuery.Proofs.Matching.Unsupported

/-!
# MarkupQuery.Proofs.CommandLine.AllOrNothing — a run prints all of its lines or none

Lines are printed one by one and a view may have no line, so a run could end half way through
its lines. It does not: only a view of nothing has no line, all views of what was found show
something (`printLines_found`), and the view that may show nothing is printed alone.

So a run either prints what `Prints` says, or it prints nothing and reports the failure of
the first stage that fails. `FailsFirst` has a constructor for each stage, which asks that
every stage before it went well.
-/

namespace MarkupQuery.CommandLine

open Selector (Group Token)

/-! ## Printing -/

/-- The line for an element: the value of its attribute, which may be missing, or its text. -/
def lineOf (attr : Option String) (e : Element) : String :=
  match attr with
  | some key => (e.attribute? key).getD ""
  | none => e.text

/-- The lines for elements, each with its end. -/
def linesOf (attr : Option String) (found : List Located) : String :=
  String.join (found.map fun l => lineOf attr l.element ++ "\n")

theorem linesOf_cons (attr : Option String) (l : Located) (ls : List Located) :
    linesOf attr (l :: ls) = lineOf attr l.element ++ "\n" ++ linesOf attr ls := by
  rw [linesOf, List.map_cons, String.join_cons]
  rfl

/-- A view of an element has a line. -/
theorem render_located (attr : Option String) (l : Located) :
    render attr ⟨some l⟩ = .ok (lineOf attr l.element) := by
  cases attr <;> rfl

/-- A view of nothing has none. -/
theorem render_nothing (attr : Option String) : render attr ⟨none⟩ = .error .noElement := by
  cases attr <;> rfl

/-- Views of elements are printed to the end, each behind the ones before it. -/
theorem printLines_found (attr : Option String) (printed : String) (found : List Located) :
    printLines attr printed (found.map fun l => ⟨some l⟩) =
      ⟨printed ++ linesOf attr found, none⟩ := by
  induction found generalizing printed with
  | nil => simp [printLines, linesOf]
  | cons l ls ih =>
    rw [List.map_cons, printLines, render_located]
    simp only
    rw [ih, linesOf_cons]
    simp only [String.append_assoc]

/-- Without `--first` the lines of all elements are printed. -/
theorem printLines_all {args : Arguments} (hfirst : args.first = false) (found : List Located) :
    printLines args.attr "" (args.views ⟨found⟩) = ⟨linesOf args.attr found, none⟩ := by
  have hviews : args.views ⟨found⟩ = found.map fun l => ⟨some l⟩ := by
    simp [Arguments.views, hfirst, Selection.toList]
  rw [hviews, printLines_found, String.empty_append]

/-- With `--first` the line of the first element is printed, if there is one. -/
theorem printLines_first {args : Arguments} (hfirst : args.first = true) (l : Located)
    (ls : List Located) :
    printLines args.attr "" (args.views ⟨l :: ls⟩) = ⟨linesOf args.attr [l], none⟩ := by
  have hviews : args.views ⟨l :: ls⟩ = [l].map fun l => ⟨some l⟩ := by
    simp [Arguments.views, hfirst, Selection.first, Selection.pick]
  rw [hviews, printLines_found, String.empty_append]

/-- With `--first` and nothing found the printing fails at once. -/
theorem printLines_nothing {args : Arguments} (hfirst : args.first = true) :
    printLines args.attr "" (args.views ⟨[]⟩) = .failed (.ofError .noElement) := by
  have hviews : args.views ⟨[]⟩ = [⟨none⟩] := by
    simp [Arguments.views, hfirst, Selection.first, Selection.pick]
  rw [hviews, printLines, render_nothing]
  rfl

/-- Printing what was found never fails behind a line. -/
theorem stdout_of_printLines_failure {args : Arguments} {found : Selection} {stdout : String}
    {failure : Failure}
    (h : printLines args.attr "" (args.views found) = ⟨stdout, some failure⟩) : stdout = "" := by
  obtain ⟨found⟩ := found
  cases hfirst : args.first with
  | false => simp [printLines_all hfirst] at h
  | true =>
    cases found with
    | nil =>
      rw [printLines_nothing hfirst, Printout.failed, Printout.mk.injEq] at h
      exact h.1.symm
    | cons l ls => simp [printLines_first hfirst] at h

/-! ## Stages -/

/-- The arguments make sense, and the source that they name holds a text in UTF-8. -/
def HasText (args : List String) (inputs : Inputs) (parsed : Arguments) (text : String) : Prop :=
  Arguments.parse args = .ok parsed ∧ inputs parsed.source = .ok text.toByteArray

/-- The text is a document as a whole. -/
def HasDocument (args : List String) (inputs : Inputs) (parsed : Arguments) (d : Document) :
    Prop :=
  ∃ text, HasText args inputs parsed text ∧ Markup.parse text = .ok d

/-- The selector is one as a whole, and the search finds these elements. -/
def Selects (args : List String) (inputs : Inputs) (parsed : Arguments) (found : List Located) :
    Prop :=
  ∃ d, HasDocument args inputs parsed d ∧ Query.find ⟨d⟩ parsed.selector = .ok ⟨found⟩

/-- What a run prints if no stage fails. -/
inductive Prints (args : List String) (inputs : Inputs) : String → Prop where
  | all {parsed : Arguments} {found : List Located} :
      Selects args inputs parsed found → parsed.first = false →
      Prints args inputs (linesOf parsed.attr found)
  | first {parsed : Arguments} {l : Located} {ls : List Located} :
      Selects args inputs parsed (l :: ls) → parsed.first = true →
      Prints args inputs (linesOf parsed.attr [l])

/-- The failure of the first stage that fails. -/
inductive FailsFirst (args : List String) (inputs : Inputs) : Failure → Prop where
  | arguments {err : ArgumentError} :
      Arguments.parse args = .error err →
      FailsFirst args inputs ⟨usage, some err.message⟩
  | source {parsed : Arguments} {cause : String} :
      Arguments.parse args = .ok parsed → inputs parsed.source = .error cause →
      FailsFirst args inputs ⟨parsed.source.unreadable, some cause⟩
  | encoding {parsed : Arguments} {bytes : ByteArray} :
      Arguments.parse args = .ok parsed → inputs parsed.source = .ok bytes →
      ¬ bytes.IsValidUTF8 →
      FailsFirst args inputs ⟨parsed.source.unreadable, some notUtf8⟩
  | markup {parsed : Arguments} {text : String} {fault : Fault} :
      HasText args inputs parsed text → Markup.parse text = .error fault →
      FailsFirst args inputs (.ofError (.unreadable .html fault))
  | selector {parsed : Arguments} {d : Document} {fault : Fault} :
      HasDocument args inputs parsed d → Selector.parse parsed.selector = .error fault →
      FailsFirst args inputs (.ofError (.unreadable .selector fault))
  | search {parsed : Arguments} {d : Document} {groups : List Group} {earlier : List Group}
      {passed : Group} {u : Token} :
      HasDocument args inputs parsed d → Selector.parse parsed.selector = .ok groups →
      FirstUnsupported (groups.headD []) earlier passed u → d.Meets earlier passed →
      FailsFirst args inputs (.ofError (.unsupported u))
  | noMatch {parsed : Arguments} :
      Selects args inputs parsed [] → parsed.first = true →
      FailsFirst args inputs (.ofError .noElement)

section Stages

variable {args : List String} {inputs : Inputs} {parsed : Arguments}

/-! ## Each stage -/

/-- Bytes are the UTF-8 of a text, or of none. -/
theorem fromUTF8?_eq_some_iff {bytes : ByteArray} {text : String} :
    String.fromUTF8? bytes = some text ↔ bytes = text.toByteArray := by
  unfold String.fromUTF8?
  split
  · rename_i hvalid
    rw [Option.some.injEq, ← String.toByteArray_inj]
    rfl
  · rename_i hinvalid
    simp only [reduceCtorEq, false_iff]
    rintro rfl
    exact hinvalid text.isValidUTF8

theorem readText_eq_ok_iff {inputs : Inputs} {source : Source} {text : String} :
    readText inputs source = .ok text ↔ inputs source = .ok text.toByteArray := by
  unfold readText
  cases inputs source with
  | error cause => simp
  | ok bytes =>
    rw [Except.ok.injEq, ← fromUTF8?_eq_some_iff]
    simp only
    cases String.fromUTF8? bytes <;> simp

theorem readText_of_not_utf8 {inputs : Inputs} {source : Source} {bytes : ByteArray}
    (h : inputs source = .ok bytes) (hbytes : ¬ bytes.IsValidUTF8) :
    readText inputs source = .error ⟨source.unreadable, some notUtf8⟩ := by
  simp only [readText, h, String.fromUTF8?, dif_neg hbytes]

/-- With a text, a run prints what the text answers. -/
theorem HasText.printout_eq {text : String} (h : HasText args inputs parsed text) :
    printout args inputs = answer parsed text := by
  simp only [printout, h.1, readText_eq_ok_iff.2 h.2]

/-- With a document, a run prints what the search finds. -/
theorem HasDocument.printout_eq {d : Document} (h : HasDocument args inputs parsed d) :
    printout args inputs = printFound parsed (Query.find ⟨d⟩ parsed.selector) := by
  obtain ⟨text, htext, hparse⟩ := h
  simp only [htext.printout_eq, answer, Query.parse, hparse]

/-- A search meets the first token without a test, or it finds elements in document order. -/
theorem findGroup_cases (d : Document) (group : Group) :
    (∃ earlier passed u, FirstUnsupported group earlier passed u ∧ d.Meets earlier passed) ∨
      ∃ found, d.findGroup group = .ok found ∧
        found.Pairwise (fun a b => a.position < b.position) := by
  by_cases hs : ∀ t ∈ group, t.IsSupported
  · obtain ⟨found, hfound, hsorted, -⟩ := findGroup_finds d hs
    exact .inr ⟨found, hfound, hsorted⟩
  · obtain ⟨earlier, passed, u, hfirst⟩ := exists_firstUnsupported (by simpa using hs)
    by_cases hmet : d.Meets earlier passed
    · exact .inl ⟨earlier, passed, u, hfirst, hmet⟩
    · exact .inr ⟨[], (findGroup_answers d hfirst).2 hmet, .nil⟩

/-- A search that meets a token without a test finds nothing. -/
theorem findGroup_of_meets {d : Document} {group : Group} {earlier : List Group}
    {passed : Group} {u : Token} (hfirst : FirstUnsupported group earlier passed u)
    (hmet : d.Meets earlier passed) : d.findGroup group = .error (.unsupported u) :=
  (findGroup_answers d hfirst).1 hmet

/-- With a selection, a run prints the lines of its views. -/
theorem Selects.printout_eq {found : List Located} (h : Selects args inputs parsed found) :
    printout args inputs = printLines parsed.attr "" (parsed.views ⟨found⟩) := by
  obtain ⟨d, hdocument, hfind⟩ := h
  rw [hdocument.printout_eq, hfind, printFound]

/-- What is found stands in document order. -/
theorem Selects.pairwise {found : List Located} (h : Selects args inputs parsed found) :
    found.Pairwise (fun a b => a.position < b.position) := by
  obtain ⟨d, -, hfind⟩ := h
  unfold Query.find at hfind
  cases hselector : Selector.parse parsed.selector with
  | error fault => simp [hselector] at hfind
  | ok groups =>
    simp only [hselector] at hfind
    rcases findGroup_cases d (groups.headD []) with ⟨_, _, u, hfirst, hmet⟩ | ⟨found', hok, hsorted⟩
    · simp only [findGroup_of_meets hfirst hmet, reduceCtorEq] at hfind
    · simp only [hok, Except.ok.injEq, Selection.mk.injEq] at hfind
      rwa [← hfind]

/-! ## Whole runs -/

/-- If no stage fails the lines are printed. -/
theorem Prints.printout_eq {out : String} (h : Prints args inputs out) :
    printout args inputs = ⟨out, none⟩ := by
  cases h with
  | @all _ found hselects hfirst => rw [hselects.printout_eq, printLines_all hfirst]
  | @first _ l ls hselects hfirst => rw [hselects.printout_eq, printLines_first hfirst]

/-- If a stage fails nothing is printed, and the first that does is reported. -/
theorem FailsFirst.printout_eq {failure : Failure} (h : FailsFirst args inputs failure) :
    printout args inputs = .failed failure := by
  cases h with
  | arguments hargs => simp only [printout, hargs]
  | source hargs hsource => simp only [printout, hargs, readText, hsource]
  | encoding hargs hsource hbytes =>
    simp only [printout, hargs, readText_of_not_utf8 hsource hbytes]
  | markup htext hmarkup =>
    rw [htext.printout_eq, answer, Query.parse, hmarkup]
  | selector hdocument hselector =>
    simp only [hdocument.printout_eq, Query.find, hselector, printFound]
  | @search _ d groups _ _ _ hdocument hselector hfirst hmet =>
    have hfind := findGroup_of_meets hfirst hmet
    simp only [hdocument.printout_eq, Query.find, hselector, hfind, printFound]
  | noMatch hselects hfirst => rw [hselects.printout_eq, printLines_nothing hfirst]

theorem Prints.run_eq {out : String} (h : Prints args inputs out) :
    run args inputs = ⟨0, out, ""⟩ := by
  simp only [run, h.printout_eq]

theorem FailsFirst.run_eq {failure : Failure} (h : FailsFirst args inputs failure) :
    run args inputs = ⟨1, "", failure.report⟩ := by
  simp only [run, h.printout_eq, Printout.failed]

/-- Only one failure is the first. -/
theorem FailsFirst.unique {failure other : Failure} (h : FailsFirst args inputs failure)
    (hother : FailsFirst args inputs other) : other = failure := by
  have heq := hother.printout_eq
  rw [h.printout_eq, Printout.failed, Printout.failed, Printout.mk.injEq] at heq
  exact (Option.some.inj heq.2).symm

/-- With a document a run prints, or a later stage fails. -/
theorem HasDocument.prints_or_fails {d : Document} (h : HasDocument args inputs parsed d) :
    (∃ out, Prints args inputs out) ∨ ∃ failure, FailsFirst args inputs failure := by
  cases hselector : Selector.parse parsed.selector with
  | error fault => exact .inr ⟨_, .selector h hselector⟩
  | ok groups =>
    rcases findGroup_cases d (groups.headD []) with ⟨_, _, u, hfirst, hmet⟩ | ⟨found, hok, -⟩
    · exact .inr ⟨_, .search h hselector hfirst hmet⟩
    · have hselects : Selects args inputs parsed found :=
        ⟨d, h, by simp only [Query.find, hselector, hok]⟩
      cases hfirst : parsed.first with
      | false => exact .inl ⟨_, .all hselects hfirst⟩
      | true =>
        cases found with
        | nil => exact .inr ⟨_, .noMatch hselects hfirst⟩
        | cons l ls => exact .inl ⟨_, .first hselects hfirst⟩

end Stages

/-- A run prints, or some stage of it fails. -/
theorem prints_or_fails (args : List String) (inputs : Inputs) :
    (∃ out, Prints args inputs out) ∨ ∃ failure, FailsFirst args inputs failure := by
  cases hargs : Arguments.parse args with
  | error err => exact .inr ⟨_, .arguments hargs⟩
  | ok parsed =>
    cases hsource : inputs parsed.source with
    | error cause => exact .inr ⟨_, .source hargs hsource⟩
    | ok bytes =>
      by_cases hbytes : bytes.IsValidUTF8
      · have htext : HasText args inputs parsed ⟨bytes, hbytes⟩ := ⟨hargs, hsource⟩
        cases hmarkup : Markup.parse ⟨bytes, hbytes⟩ with
        | error fault => exact .inr ⟨_, .markup htext hmarkup⟩
        | ok d => exact HasDocument.prints_or_fails ⟨_, htext, hmarkup⟩
      · exact .inr ⟨_, .encoding hargs hsource hbytes⟩

/-- A run prints all of its lines and nothing else, or no line and the report of the first
stage that fails. The lines are those of the elements that the search finds in document
order, or of the first of them; and the printing of what was found never fails behind a
line. -/
theorem run_all_or_nothing (args : List String) (inputs : Inputs) :
    ((∃ out, Prints args inputs out) ∨ ∃ failure, FailsFirst args inputs failure) ∧
    (∀ out, Prints args inputs out ↔ run args inputs = ⟨0, out, ""⟩) ∧
    (∀ failure, FailsFirst args inputs failure →
      run args inputs = ⟨1, "", failure.report⟩ ∧
        ∀ other, FailsFirst args inputs other → other = failure) ∧
    ((run args inputs).exitCode = 1 ↔ ∃ failure, FailsFirst args inputs failure) ∧
    (∀ parsed found, Selects args inputs parsed found →
      found.Pairwise (fun a b => a.position < b.position) ∧
        ∀ stdout failure, printLines parsed.attr "" (parsed.views ⟨found⟩) =
          ⟨stdout, some failure⟩ → stdout = "") := by
  refine ⟨prints_or_fails args inputs, ?_, ?_, ?_, ?_⟩
  · refine fun out => ⟨Prints.run_eq, ?_⟩
    intro hrun
    rcases prints_or_fails args inputs with ⟨out', hout'⟩ | ⟨failure, hfailure⟩
    · rw [hout'.run_eq, Outcome.mk.injEq] at hrun
      rwa [← hrun.2.1]
    · simp [hfailure.run_eq] at hrun
  · exact fun failure hfailure => ⟨hfailure.run_eq, fun other => hfailure.unique⟩
  · constructor
    · intro hexit
      refine (prints_or_fails args inputs).resolve_left ?_
      rintro ⟨out, hout⟩
      simp [hout.run_eq] at hexit
    · rintro ⟨failure, hfailure⟩
      rw [hfailure.run_eq]
  · intro parsed found hselects
    exact ⟨hselects.pairwise, fun stdout failure => stdout_of_printLines_failure⟩

-- a missing attribute is an empty line, a missing element is a failure
example : run ["-a", "c", "p"] (fun _ => .ok "<p>a</p><p c=d>".toByteArray) =
    ⟨0, "\nd\n", ""⟩ := by
  decide +kernel

example : run ["-a", "c", "-1", "b"] (fun _ => .ok "<p>a</p><p c=d>".toByteArray) =
    ⟨1, "", "Error: No element found\n"⟩ := by
  decide +kernel

end MarkupQuery.CommandLine

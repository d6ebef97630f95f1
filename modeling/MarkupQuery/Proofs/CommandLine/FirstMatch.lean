import MarkupQuery.Proofs.CommandLine.AllOrNothing

/-!
# MarkupQuery.Proofs.CommandLine.FirstMatch — the flag for the first match

The flag for the first match may stand anywhere among the arguments, also between an option and
its value. Arguments are taken out of their list one kind after the other, and this flag is
taken out before any value, selector or file. Flags that are taken out before it leave it
where it is (`takeFlag_erase`). So with the flag the same is asked as without, but for the
first match only (`parse_of_first`).

The two runs therefore fail alike up to the search (`FailsFirst.onlyFirst`). Of what the search
finds one run prints all lines and the other the first of them, or fails if there is none.
-/

namespace MarkupQuery.CommandLine

/-! ## Flags -/

section Flags

variable {long short arg : String} {args : List String}

/-- The long form of a flag is taken, or else the short form, or else nothing. -/
theorem takeFlag_cases (long short : String) (args : List String) :
    (long ∈ args ∧ takeFlag long short args = (true, args.erase long)) ∨
    (long ∉ args ∧ short ∈ args ∧ takeFlag long short args = (true, args.erase short)) ∨
    (long ∉ args ∧ short ∉ args ∧ takeFlag long short args = (false, args)) := by
  by_cases hlong : long ∈ args
  · exact .inl ⟨hlong, by simp [takeFlag, hlong]⟩
  · by_cases hshort : short ∈ args
    · exact .inr (.inl ⟨hlong, hshort, by simp [takeFlag, hlong, hshort]⟩)
    · exact .inr (.inr ⟨hlong, hshort, by simp [takeFlag, hlong, hshort]⟩)

/-- To take a flag away and to drop another argument may change places. -/
theorem takeFlag_erase (hlong : long ≠ arg) (hshort : short ≠ arg) (args : List String) :
    takeFlag long short (args.erase arg) =
      ((takeFlag long short args).1, (takeFlag long short args).2.erase arg) := by
  have hcontains : ∀ flag, flag ≠ arg → (args.erase arg).contains flag = args.contains flag := by
    intro flag hne
    rw [Bool.eq_iff_iff, List.contains_iff_mem, List.contains_iff_mem, List.mem_erase_of_ne hne]
  unfold takeFlag
  rw [hcontains long hlong, hcontains short hshort]
  split
  · rw [List.erase_comm]
  · split
    · rw [List.erase_comm]
    · rfl

/-- Arguments other than the flag stay. -/
theorem mem_takeFlag (hlong : long ≠ arg) (hshort : short ≠ arg) (h : arg ∈ args) :
    arg ∈ (takeFlag long short args).2 := by
  rcases takeFlag_cases long short args with ⟨-, heq⟩ | ⟨-, -, heq⟩ | ⟨-, -, heq⟩ <;> rw [heq]
  · exact (List.mem_erase_of_ne hlong.symm).2 h
  · exact (List.mem_erase_of_ne hshort.symm).2 h
  · exact h

/-- No argument is added. -/
theorem mem_of_mem_takeFlag (h : arg ∈ (takeFlag long short args).2) : arg ∈ args := by
  rcases takeFlag_cases long short args with ⟨-, heq⟩ | ⟨-, -, heq⟩ | ⟨-, -, heq⟩ <;>
    rw [heq] at h
  · exact List.mem_of_mem_erase h
  · exact List.mem_of_mem_erase h
  · exact h

/-- A flag in neither of its forms is not taken. -/
theorem takeFlag_of_not_mem (hlong : long ∉ args) (hshort : short ∉ args) :
    takeFlag long short args = (false, args) := by
  rcases takeFlag_cases long short args with ⟨hmem, -⟩ | ⟨-, hmem, -⟩ | ⟨-, -, heq⟩
  · exact absurd hmem hlong
  · exact absurd hmem hshort
  · exact heq

/-- The only form of a flag among the arguments is taken, wherever it stands. -/
theorem takeFlag_of_mem (harg : arg = long ∨ arg = short) (hmem : arg ∈ args)
    (hlong : long ∉ args.erase arg) : takeFlag long short args = (true, args.erase arg) := by
  by_cases heq : arg = long
  · subst heq
    rcases takeFlag_cases arg short args with ⟨-, htake⟩ | ⟨hnot, -⟩ | ⟨hnot, -⟩
    · exact htake
    · exact absurd hmem hnot
    · exact absurd hmem hnot
  · -- the long form is not there, or it would be there without the short one
    obtain rfl := harg.resolve_left heq
    rw [List.mem_erase_of_ne (Ne.symm heq)] at hlong
    rcases takeFlag_cases long arg args with ⟨hthere, -⟩ | ⟨-, -, htake⟩ | ⟨-, hnot, -⟩
    · exact absurd hthere hlong
    · exact htake
    · exact absurd hmem hnot

end Flags

/-! ## Arguments -/

/-- The same, but for the first match only. -/
def Arguments.onlyFirst (args : Arguments) : Arguments := { args with first := true }

/-- Without its flag not only the first match is asked for. -/
theorem first_of_parse {args : List String} {parsed : Arguments} (hlong : "--first" ∉ args)
    (hshort : "-1" ∉ args) (h : Arguments.parse args = .ok parsed) : parsed.first = false := by
  have hflag : takeFlag "--first" "-1" (takeFlag "--trace" "-t" args).2 =
      (false, (takeFlag "--trace" "-t" args).2) :=
    takeFlag_of_not_mem (fun hmem => hlong (mem_of_mem_takeFlag hmem))
      (fun hmem => hshort (mem_of_mem_takeFlag hmem))
  simp only [Arguments.parse, hflag] at h
  split at h
  · simp at h
  · simp at h
  · rw [← Except.ok.inj h]

/-- With one flag for the first match the same is asked as without it, for the first match
only, or the same is wrong. -/
theorem parse_of_first {args : List String} {flag : String}
    (hflag : flag = "--first" ∨ flag = "-1") (hmem : flag ∈ args)
    (hlong : "--first" ∉ args.erase flag) (hshort : "-1" ∉ args.erase flag) :
    Arguments.parse args = (Arguments.parse (args.erase flag)).map Arguments.onlyFirst := by
  have htrace : "--trace" ≠ flag := by rcases hflag with rfl | rfl <;> decide
  have ht : "-t" ≠ flag := by rcases hflag with rfl | rfl <;> decide
  -- behind the flag for tracing the two lists still differ by this flag only
  have htraced := takeFlag_erase htrace ht args
  have hkeeps : ∀ arg, arg ∉ args.erase flag →
      arg ∉ (takeFlag "--trace" "-t" args).2.erase flag := by
    intro arg hnot harg
    have hleft : arg ∈ (takeFlag "--trace" "-t" (args.erase flag)).2 := by
      rw [htraced]
      exact harg
    exact hnot (mem_of_mem_takeFlag hleft)
  have hwith := takeFlag_of_mem hflag (mem_takeFlag htrace ht hmem) (hkeeps _ hlong)
  have hwithout := takeFlag_of_not_mem (hkeeps _ hlong) (hkeeps _ hshort)
  simp only [Arguments.parse, htraced, hwith, hwithout]
  rcases takeOption "--attr" "-a" ((takeFlag "--trace" "-t" args).2.erase flag) with
    err | ⟨attr, _ | ⟨selector, others⟩⟩ <;> rfl

/-- The flag may be put anywhere among arguments that have none. -/
theorem parse_inserted {front back : List String} {flag : String}
    (hflag : flag = "--first" ∨ flag = "-1") (hlong : "--first" ∉ front ++ back)
    (hshort : "-1" ∉ front ++ back) :
    Arguments.parse (front ++ flag :: back) =
      (Arguments.parse (front ++ back)).map Arguments.onlyFirst := by
  have hfront : flag ∉ front := by
    intro hmem
    rcases hflag with rfl | rfl
    · exact hlong (List.mem_append_left back hmem)
    · exact hshort (List.mem_append_left back hmem)
  have herase : (front ++ flag :: back).erase flag = front ++ back := by
    rw [List.erase_append_right _ hfront, List.erase_cons_head]
  rw [← herase] at hlong hshort ⊢
  exact parse_of_first hflag (by simp) hlong hshort

/-! ## Stages -/

section Stages

variable {args args' : List String} {inputs : Inputs} {parsed : Arguments}

section SameArguments

variable (hargs : Arguments.parse args' = (Arguments.parse args).map Arguments.onlyFirst)
include hargs

theorem HasText.onlyFirst {text : String}
    (h : HasText args inputs parsed text) : HasText args' inputs parsed.onlyFirst text := by
  refine ⟨?_, h.2⟩
  rw [hargs, h.1]
  rfl

theorem HasDocument.onlyFirst {d : Document}
    (h : HasDocument args inputs parsed d) : HasDocument args' inputs parsed.onlyFirst d := by
  obtain ⟨text, htext, hmarkup⟩ := h
  exact ⟨text, htext.onlyFirst hargs, hmarkup⟩

/-- The same is found. -/
theorem Selects.onlyFirst {found : List Located}
    (h : Selects args inputs parsed found) : Selects args' inputs parsed.onlyFirst found := by
  obtain ⟨d, hdocument, hfind⟩ := h
  exact ⟨d, hdocument.onlyFirst hargs, hfind⟩

end SameArguments

section AllMatches

variable (hall : ∀ parsed, Arguments.parse args = .ok parsed → parsed.first = false)
include hall

/-- All matches are asked for where the arguments never ask for the first only. -/
theorem Selects.first_eq_false {found : List Located}
    (h : Selects args inputs parsed found) : parsed.first = false := by
  obtain ⟨d, ⟨text, htext, -⟩, -⟩ := h
  exact hall parsed htext.1

/-- A stage that fails up to the search fails alike. -/
theorem FailsFirst.onlyFirst {failure : Failure}
    (hargs : Arguments.parse args' = (Arguments.parse args).map Arguments.onlyFirst)
    (h : FailsFirst args inputs failure) : FailsFirst args' inputs failure := by
  have hparsed : ∀ {parsed}, Arguments.parse args = .ok parsed →
      Arguments.parse args' = .ok parsed.onlyFirst := by
    intro parsed hok
    rw [hargs, hok]
    rfl
  cases h with
  | arguments herror =>
    refine .arguments ?_
    rw [hargs, herror]
    rfl
  | @source parsed cause hok hsource =>
    have hfails : FailsFirst args' inputs ⟨parsed.onlyFirst.source.unreadable, some cause⟩ :=
      .source (hparsed hok) hsource
    exact hfails
  | @encoding parsed bytes hok hsource hbytes =>
    have hfails : FailsFirst args' inputs ⟨parsed.onlyFirst.source.unreadable, some notUtf8⟩ :=
      .encoding (hparsed hok) hsource hbytes
    exact hfails
  | markup htext hmarkup => exact .markup (htext.onlyFirst hargs) hmarkup
  | selector hdocument hselector => exact .selector (hdocument.onlyFirst hargs) hselector
  | search hdocument hselector hunsupported hmet =>
    exact .search (hdocument.onlyFirst hargs) hselector hunsupported hmet
  | noMatch hselects hfirst =>
    -- all matches are asked for, so it is no failure that there is none
    simp [hselects.first_eq_false hall] at hfirst

/-- Where all matches are asked for a run fails exactly if the search is not reached or fails. -/
theorem exitCode_eq_zero_iff :
    (run args inputs).exitCode = 0 ↔ ∃ parsed found, Selects args inputs parsed found := by
  constructor
  · intro hexit
    rcases prints_or_fails args inputs with ⟨out, hout⟩ | ⟨failure, hfailure⟩
    · cases hout with
      | all hselects _ => exact ⟨_, _, hselects⟩
      | first hselects _ => exact ⟨_, _, hselects⟩
    · simp [hfailure.run_eq] at hexit
  · rintro ⟨parsed, found, hselects⟩
    rw [(Prints.all hselects (hselects.first_eq_false hall)).run_eq]

end AllMatches

end Stages

/-! ## Runs -/

/-- One flag for the first match, put anywhere among arguments that have none, leaves a failed
run as it is. If the run finds nothing it fails with the flag, and otherwise it prints with the
flag just the line of the first match, which is the front of what it prints without. -/
theorem run_first_inserted (front back : List String) {flag : String}
    (hflag : flag = "--first" ∨ flag = "-1") (hlong : "--first" ∉ front ++ back)
    (hshort : "-1" ∉ front ++ back) (inputs : Inputs) :
    ((run (front ++ back) inputs).exitCode ≠ 0 →
      run (front ++ flag :: back) inputs = run (front ++ back) inputs) ∧
    (∀ parsed, Selects (front ++ back) inputs parsed [] →
      run (front ++ back) inputs = ⟨0, "", ""⟩ ∧
        run (front ++ flag :: back) inputs = ⟨1, "", "Error: No element found\n"⟩) ∧
    (∀ parsed l ls, Selects (front ++ back) inputs parsed (l :: ls) →
      run (front ++ back) inputs =
          ⟨0, lineOf parsed.attr l.element ++ "\n" ++ linesOf parsed.attr ls, ""⟩ ∧
        run (front ++ flag :: back) inputs = ⟨0, lineOf parsed.attr l.element ++ "\n", ""⟩) ∧
    ((run (front ++ back) inputs).exitCode = 0 ↔
      ∃ parsed found, Selects (front ++ back) inputs parsed found) := by
  have hargs := parse_inserted hflag hlong hshort
  have hall : ∀ parsed, Arguments.parse (front ++ back) = .ok parsed → parsed.first = false :=
    fun _ => first_of_parse hlong hshort
  refine ⟨?_, ?_, ?_, exitCode_eq_zero_iff hall⟩
  · intro hexit
    rcases prints_or_fails (front ++ back) inputs with ⟨out, hout⟩ | ⟨failure, hfailure⟩
    · simp [hout.run_eq] at hexit
    · rw [hfailure.run_eq, (hfailure.onlyFirst hall hargs).run_eq]
  · intro parsed hselects
    refine ⟨(Prints.all hselects (hselects.first_eq_false hall)).run_eq, ?_⟩
    exact (FailsFirst.noMatch (hselects.onlyFirst hargs) rfl).run_eq
  · intro parsed l ls hselects
    have hfull := (Prints.all hselects (hselects.first_eq_false hall)).run_eq
    have hfirst := (Prints.first (hselects.onlyFirst hargs) rfl).run_eq
    rw [linesOf_cons] at hfull hfirst
    refine ⟨hfull, ?_⟩
    simpa [linesOf, Arguments.onlyFirst] using hfirst

/-- Between an option and its value the flag is not taken for the value; behind a selector that
finds nothing it makes the run fail; in front of a selector that cannot be read it changes
nothing. -/
theorem run_first_behind_option :
    let text := "<p>a</p><p c=d>"
    let inputs : Inputs := fun _ => .ok text.toByteArray
    let found : List Located :=
      [⟨0, ⟨"p", [], [.text "a"]⟩⟩, ⟨2, ⟨"p", [⟨"c", "d"⟩], []⟩⟩]
    (Selects ["-a", "c", "p"] inputs ⟨false, false, some "c", "p", none⟩ found ∧
      run ["-a", "c", "p"] inputs = ⟨0, "\nd\n", ""⟩ ∧
      run ["-a", "-1", "c", "p"] inputs = ⟨0, "\n", ""⟩) ∧
    (Selects ["b"] inputs ⟨false, false, none, "b", none⟩ [] ∧
      run ["b"] inputs = ⟨0, "", ""⟩ ∧
      run ["b", "--first"] inputs = ⟨1, "", "Error: No element found\n"⟩) ∧
    ((run ["p >"] inputs).exitCode ≠ 0 ∧ run ["-1", "p >"] inputs = run ["p >"] inputs) := by
  intro text inputs found
  have hdocument : Markup.parse text = .ok ⟨found.map (·.element.toNode)⟩ := by decide +kernel
  have hselects : Selects ["-a", "c", "p"] inputs ⟨false, false, some "c", "p", none⟩ found :=
    ⟨_, ⟨text, ⟨by decide, rfl⟩, hdocument⟩, by decide +kernel⟩
  have hnothing : Selects ["b"] inputs ⟨false, false, none, "b", none⟩ [] :=
    ⟨_, ⟨text, ⟨by decide, rfl⟩, hdocument⟩, by decide +kernel⟩
  have hfails : (run ["p >"] inputs).exitCode ≠ 0 := by decide +kernel
  have hbehind := run_first_inserted ["-a"] ["c", "p"] (.inr rfl) (by decide) (by decide) inputs
  have hlast := run_first_inserted ["b"] [] (.inl rfl) (by decide) (by decide) inputs
  have hfront := run_first_inserted [] ["p >"] (.inr rfl) (by decide) (by decide) inputs
  obtain ⟨hall, hone⟩ := hbehind.2.2.1 _ _ _ hselects
  obtain ⟨hempty, hmissing⟩ := hlast.2.1 _ hnothing
  refine ⟨⟨hselects, ?_, ?_⟩, ⟨hnothing, hempty, hmissing⟩, hfails, hfront.1 hfails⟩
  · exact hall
  · exact hone

end MarkupQuery.CommandLine

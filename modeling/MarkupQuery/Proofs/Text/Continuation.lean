import MarkupQuery.Proofs.Text.Truncation

/-!
# MarkupQuery.Proofs.Text.Continuation — reading from texts that go on

What a reader answers may change when its text goes on: a run may reach further, and a closing
quote that was missing may be found. It does not while reading stays in front of a character
that is in the text already. For a reader that ignores what is appended (`IgnoresMore`), a text
may go on with `more` wherever the reader leaves a `stop`, and it takes and answers the same.

A choice, an option or a repetition needs to know as well that a reader that fails does not start
to read where the text goes on (`FailsWithMore`). As for texts that end earlier, one lemma for
each way to put readers together carries both through.
-/

namespace MarkupQuery.Reader

variable {α β : Type} {stop : Char} {more : List Char}

/-- Where a `stop` is left the text may go on with `more`, and the reader takes and answers the
same. -/
def IgnoresMore (stop : Char) (more : List Char) (read : Reader α) : Prop :=
  ∀ cs a rest, read cs = some (a, rest) → stop ∈ rest → read (cs ++ more) = some (a, rest ++ more)

/-- Where nothing is read from a text with a `stop` in it, nothing is read if it goes on with
`more`. -/
def FailsWithMore (stop : Char) (more : List Char) (read : Reader α) : Prop :=
  ∀ cs, read cs = none → stop ∈ cs → read (cs ++ more) = none

/-- What is left of a text is part of it. -/
theorem IgnoresRest.mem {read : Reader α} (h : IgnoresRest read) {cs rest : List Char} {a : α}
    (hread : read cs = some (a, rest)) {c : Char} (hc : c ∈ rest) : c ∈ cs := by
  obtain ⟨taken, rfl, -⟩ := h _ _ _ hread
  exact List.mem_append_right taken hc

theorem EndsItself.append {read : Reader α} (h : EndsItself read) {cs rest : List Char} {a : α}
    (hread : read cs = some (a, rest)) (more : List Char) :
    read (cs ++ more) = some (a, rest ++ more) := by
  obtain ⟨taken, rfl, hany⟩ := h _ _ _ hread
  rw [List.append_assoc]
  exact hany _

/-- A text with a character in it starts the same when it goes on. -/
theorem head?_append_of_mem {cs : List Char} (h : stop ∈ cs) (more : List Char) :
    (cs ++ more).head? = cs.head? := by
  cases cs with
  | nil => simp at h
  | cons c cs => rfl

/-! ## Runs -/

theorem run_ignoresMore (p : Char → Bool) : IgnoresMore stop more (run p) := by
  intro cs taken rest h hstop
  obtain ⟨hne, htaken, hrest, rfl⟩ := run_eq_some_iff_append.1 h
  rw [List.append_assoc]
  apply run_append hne htaken
  rwa [head?_append_of_mem hstop]

theorem run_failsWithMore (p : Char → Bool) : FailsWithMore stop more (run p) := by
  intro cs hnone hstop
  rw [run_eq_none_iff] at hnone ⊢
  rwa [head?_append_of_mem hstop]

theorem before_ignoresMore (close : Char) : IgnoresMore stop more (before close) :=
  fun _ _ _ hread _ => (before_endsItself close).append hread more

/-- A closing character that is missing must not be appended. -/
theorem before_failsWithMore {close : Char} (hclose : close ∉ more) :
    FailsWithMore stop more (before close) := by
  intro cs hnone _
  rw [before_eq_none_iff] at hnone ⊢
  rw [List.mem_append, not_or]
  exact ⟨hnone, hclose⟩

/-! ## One reader behind another -/

theorem mapValue_ignoresMore (f : α → β) {read : Reader α} (h : IgnoresMore stop more read) :
    IgnoresMore stop more (mapValue f read) := by
  intro cs b rest hread hstop
  obtain ⟨a, ha, rfl⟩ := mapValue_eq_some_iff.1 hread
  exact mapValue_eq_some_iff.2 ⟨a, h _ _ _ ha hstop, rfl⟩

theorem mapValue_failsWithMore (f : α → β) {read : Reader α} (h : FailsWithMore stop more read) :
    FailsWithMore stop more (mapValue f read) := by
  intro cs hnone hstop
  rw [mapValue_eq_none_iff] at hnone ⊢
  exact h cs hnone hstop

theorem andThen_ignoresMore {first : Reader α} {second : Reader β}
    (h₁ : IgnoresMore stop more first) (h₂ : IgnoresMore stop more second)
    (hrest : IgnoresRest second) : IgnoresMore stop more (andThen first second) := by
  rintro cs ⟨a, b⟩ rest hread hstop
  obtain ⟨middle, hfirst, hsecond⟩ := andThen_eq_some_iff.1 hread
  have hmiddle := h₁ _ _ _ hfirst (hrest.mem hsecond hstop)
  exact andThen_eq_some_iff.2 ⟨_, hmiddle, h₂ _ _ _ hsecond hstop⟩

theorem andThen_failsWithMore {first : Reader α} {second : Reader β}
    (h : FailsWithMore stop more first) (hsecond : ∀ cs, second cs ≠ none) :
    FailsWithMore stop more (andThen first second) := by
  intro cs hnone hstop
  rw [andThen_eq_none_iff hsecond] at hnone ⊢
  exact h cs hnone hstop

theorem behindChar_ignoresMore (c : Char) {read : Reader α} (h : IgnoresMore stop more read) :
    IgnoresMore stop more (behindChar c read) := by
  intro cs a rest hread hstop
  cases cs with
  | nil => simp [behindChar] at hread
  | cons d cs =>
    simp only [behindChar, List.cons_append] at hread ⊢
    split at hread
    · rename_i heq
      rw [if_pos heq]
      exact h _ _ _ hread hstop
    · simp at hread

theorem behindChar_failsWithMore {c : Char} (hc : c ≠ stop) {read : Reader α}
    (h : FailsWithMore stop more read) : FailsWithMore stop more (behindChar c read) := by
  intro cs hnone hstop
  cases cs with
  | nil => simp at hstop
  | cons d cs =>
    simp only [behindChar, List.cons_append] at hnone ⊢
    split
    · rename_i heq
      rw [if_pos heq] at hnone
      exact h _ hnone (List.mem_of_ne_of_mem (heq ▸ hc.symm) hstop)
    · rfl

/-- The blanks at the front of a text end in front of a `stop` that is no blank. -/
theorem skipBlanks_append_of_mem (hstop : isBlank stop = false) {cs : List Char} (h : stop ∈ cs)
    (more : List Char) :
    skipBlanks (cs ++ more) = skipBlanks cs ++ more ∧ stop ∈ skipBlanks cs := by
  have hmem : stop ∈ cs.dropWhile isBlank := by
    rw [← List.takeWhile_append_dropWhile (p := isBlank) (l := cs), List.mem_append] at h
    refine h.resolve_left fun htake => ?_
    have hblank := List.mem_takeWhile_imp htake
    rw [hstop] at hblank
    simp at hblank
  refine ⟨?_, hmem⟩
  rw [skipBlanks, skipBlanks, List.dropWhile_append, if_neg]
  simpa using List.ne_nil_of_mem hmem

theorem behindBlanks_ignoresMore (hstop : isBlank stop = false) {read : Reader α}
    (h : IgnoresMore stop more read) (hrest : IgnoresRest read) :
    IgnoresMore stop more (behindBlanks read) := by
  intro cs a rest hread hleft
  have hmem : stop ∈ cs := (skipBlanks_suffix cs).subset (hrest.mem hread hleft)
  rw [behindBlanks, (skipBlanks_append_of_mem hstop hmem more).1]
  exact h _ _ _ hread hleft

theorem behindBlanks_failsWithMore (hstop : isBlank stop = false) {read : Reader α}
    (h : FailsWithMore stop more read) : FailsWithMore stop more (behindBlanks read) := by
  intro cs hnone hmem
  obtain ⟨hskip, hleft⟩ := skipBlanks_append_of_mem hstop hmem more
  rw [behindBlanks, hskip]
  exact h _ hnone hleft

/-! ## Choice, option and repetition -/

theorem either_ignoresMore {first second : Reader α} (h₁ : IgnoresMore stop more first)
    (hfails : FailsWithMore stop more first) (h₂ : IgnoresMore stop more second)
    (hrest : IgnoresRest second) : IgnoresMore stop more (either first second) := by
  intro cs a rest hread hstop
  rcases Option.or_eq_some_iff.1 hread with hfirst | ⟨hnone, hsecond⟩
  · rw [either, h₁ _ _ _ hfirst hstop, Option.some_or]
  · rw [either, hfails _ hnone (hrest.mem hsecond hstop), Option.none_or]
    exact h₂ _ _ _ hsecond hstop

theorem either_failsWithMore {first second : Reader α} (h₁ : FailsWithMore stop more first)
    (h₂ : FailsWithMore stop more second) : FailsWithMore stop more (either first second) := by
  intro cs hnone hstop
  obtain ⟨hfirst, hsecond⟩ := Option.or_eq_none_iff.1 hnone
  exact Option.or_eq_none_iff.2 ⟨h₁ _ hfirst hstop, h₂ _ hsecond hstop⟩

theorem orNothing_ignoresMore {read : Reader α} (h : IgnoresMore stop more read)
    (hfails : FailsWithMore stop more read) : IgnoresMore stop more (orNothing read) := by
  intro cs a rest hread hstop
  unfold orNothing at hread
  split at hread
  · rename_i a' rest' hsome
    simp only [Option.some.injEq, Prod.mk.injEq] at hread
    obtain ⟨rfl, rfl⟩ := hread
    simp only [orNothing, h _ _ _ hsome hstop]
  · rename_i hnone
    simp only [Option.some.injEq, Prod.mk.injEq] at hread
    obtain ⟨rfl, rfl⟩ := hread
    simp only [orNothing, hfails _ hnone hstop]

theorem takes_ignoresMore {read : Reader α} (h : IgnoresMore stop more read)
    (hrest : IgnoresRest read) {cs rest : List Char} {as : List α}
    (htakes : Takes read cs as rest) (hstop : stop ∈ rest) :
    Takes read (cs ++ more) as (rest ++ more) := by
  induction htakes with
  | nil => exact .nil
  | @cons cs middle rest a as hread htakes ih =>
    obtain ⟨taken, rfl, -⟩ := takes_ignoresRest hrest htakes
    exact .cons (h _ _ _ hread (List.mem_append_right taken hstop)) (ih hstop)

theorem repeated_ignoresMore {read : Reader α} (hc : Consumes read)
    (h : IgnoresMore stop more read) (hfails : FailsWithMore stop more read)
    (hrest : IgnoresRest read) : IgnoresMore stop more (repeated read hc) := by
  intro cs as rest hread hstop
  obtain ⟨htakes, hnone⟩ := many_eq_iff_takes.1 (Option.some.inj hread)
  have hmore := takes_ignoresMore h hrest htakes hstop
  exact congrArg some (many_eq_iff_takes.2 ⟨hmore, hfails _ hnone hstop⟩)

end MarkupQuery.Reader

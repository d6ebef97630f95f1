import MarkupQuery.Proofs.Text.LongestReading
import MarkupQuery.Proofs.Text.Taking
import MarkupQuery.Text.Blank

/-!
# MarkupQuery.Proofs.Text.Truncation — reading from texts that end earlier

A reader sees the whole text before it answers, so what it answers may depend on characters
that it leaves. It does not for a reader that ignores its rest (`IgnoresRest`): what it
leaves may be cut off anywhere, and the reader takes and answers the same.

Of a choice, an option or a repetition this holds only if a reader that fails does not start
to read where the text ends earlier (`FailsOnFronts`). One lemma for each way to put readers
together carries both through.
-/

namespace MarkupQuery.Reader

variable {α β : Type}

/-- What the reader leaves may be cut off anywhere, and it takes and answers the same. -/
def IgnoresRest (read : Reader α) : Prop :=
  ∀ cs a rest, read cs = some (a, rest) →
    ∃ taken, cs = taken ++ rest ∧
      ∀ rest', rest' <+: rest → read (taken ++ rest') = some (a, rest')

/-- Where nothing is read from a text, nothing is read from a front of that text. -/
def FailsOnFronts (read : Reader α) : Prop :=
  ∀ cs front, read cs = none → front <+: cs → read front = none

/-- Whatever stands behind what the reader takes, it takes and answers the same. -/
def EndsItself (read : Reader α) : Prop :=
  ∀ cs a rest, read cs = some (a, rest) →
    ∃ taken, cs = taken ++ rest ∧ ∀ rest', read (taken ++ rest') = some (a, rest')

theorem EndsItself.ignoresRest {read : Reader α} (h : EndsItself read) : IgnoresRest read := by
  intro cs a rest hread
  obtain ⟨taken, rfl, hany⟩ := h _ _ _ hread
  exact ⟨taken, rfl, fun rest' _ => hany rest'⟩

/-! ## Runs -/

theorem run_ignoresRest (p : Char → Bool) : IgnoresRest (run p) := by
  intro cs taken rest h
  obtain ⟨hne, htaken, hrest, rfl⟩ := run_eq_some_iff_append.1 h
  refine ⟨taken, rfl, ?_⟩
  intro rest' hfront
  exact run_append hne htaken fun c hc => hrest c (head?_of_front hfront c hc)

theorem run_failsOnFronts (p : Char → Bool) : FailsOnFronts (run p) := by
  intro cs front hnone hfront
  rw [run_eq_none_iff] at hnone ⊢
  exact fun c hc => hnone c (head?_of_front hfront c hc)

theorem before_endsItself (close : Char) : EndsItself (before close) := by
  intro cs taken rest h
  obtain ⟨rfl, hfree⟩ := before_eq_some_iff.1 h
  refine ⟨taken ++ [close], by simp, ?_⟩
  intro rest'
  exact before_eq_some_iff.2 ⟨by simp, hfree⟩

theorem before_ignoresRest (close : Char) : IgnoresRest (before close) :=
  (before_endsItself close).ignoresRest

theorem before_failsOnFronts (close : Char) : FailsOnFronts (before close) := by
  intro cs front hnone hfront
  rw [before_eq_none_iff] at hnone ⊢
  exact fun hmem => hnone (hfront.subset hmem)

/-! ## One reader behind another -/

theorem mapValue_ignoresRest (f : α → β) {read : Reader α} (h : IgnoresRest read) :
    IgnoresRest (mapValue f read) := by
  intro cs b rest hread
  obtain ⟨a, ha, rfl⟩ := mapValue_eq_some_iff.1 hread
  obtain ⟨taken, rfl, hcut⟩ := h _ _ _ ha
  refine ⟨taken, rfl, ?_⟩
  intro rest' hfront
  exact mapValue_eq_some_iff.2 ⟨a, hcut rest' hfront, rfl⟩

theorem mapValue_failsOnFronts (f : α → β) {read : Reader α} (h : FailsOnFronts read) :
    FailsOnFronts (mapValue f read) := by
  intro cs front hnone hfront
  rw [mapValue_eq_none_iff] at hnone ⊢
  exact h cs front hnone hfront

/-- What the second reader takes is no rest of the first, but a front of it. -/
theorem andThen_ignoresRest {first : Reader α} {second : Reader β} (h₁ : IgnoresRest first)
    (h₂ : IgnoresRest second) : IgnoresRest (andThen first second) := by
  rintro cs ⟨a, b⟩ rest hread
  obtain ⟨middle, hfirst, hsecond⟩ := andThen_eq_some_iff.1 hread
  obtain ⟨taken₁, rfl, hcut₁⟩ := h₁ _ _ _ hfirst
  obtain ⟨taken₂, rfl, hcut₂⟩ := h₂ _ _ _ hsecond
  refine ⟨taken₁ ++ taken₂, by simp, ?_⟩
  intro rest' hfront
  rw [List.append_assoc]
  apply andThen_eq_some_iff.2
  have hmiddle : taken₂ ++ rest' <+: taken₂ ++ rest := (List.prefix_append_right_inj _).2 hfront
  exact ⟨taken₂ ++ rest', hcut₁ _ hmiddle, hcut₂ _ hfront⟩

/-- A sequence whose second reader always answers fails where the first one does. -/
theorem andThen_eq_none_iff {first : Reader α} {second : Reader β}
    (hsecond : ∀ cs, second cs ≠ none) {cs : List Char} :
    andThen first second cs = none ↔ first cs = none := by
  unfold andThen
  split
  · simp [*]
  · rename_i a middle hfirst
    simp [hfirst, mapValue_eq_none_iff, hsecond middle]

theorem andThen_failsOnFronts {first : Reader α} {second : Reader β} (h : FailsOnFronts first)
    (hsecond : ∀ cs, second cs ≠ none) : FailsOnFronts (andThen first second) := by
  intro cs front hnone hfront
  rw [andThen_eq_none_iff hsecond] at hnone ⊢
  exact h cs front hnone hfront

/-- The character `c`, and then what `read` takes. -/
def behindChar (c : Char) (read : Reader α) : Reader α
  | [] => none
  | d :: cs => if d = c then read cs else none

theorem behindChar_self (c : Char) (read : Reader α) (cs : List Char) :
    behindChar c read (c :: cs) = read cs :=
  if_pos rfl

theorem behindChar_ignoresRest (c : Char) {read : Reader α} (h : IgnoresRest read) :
    IgnoresRest (behindChar c read) := by
  intro cs a rest hread
  unfold behindChar at hread
  split at hread
  · simp at hread
  · rename_i d cs
    split at hread
    · rename_i heq
      obtain ⟨taken, rfl, hcut⟩ := h _ _ _ hread
      subst heq
      refine ⟨d :: taken, rfl, ?_⟩
      intro rest' hfront
      rw [List.cons_append, behindChar_self]
      exact hcut rest' hfront
    · simp at hread

theorem behindChar_failsOnFronts (c : Char) {read : Reader α} (h : FailsOnFronts read) :
    FailsOnFronts (behindChar c read) := by
  intro cs front hnone hfront
  cases front with
  | nil => rfl
  | cons d front =>
    obtain ⟨more, rfl⟩ := hfront
    simp only [List.cons_append, behindChar] at hnone ⊢
    split
    · rename_i heq
      rw [if_pos heq] at hnone
      exact h _ _ hnone (List.prefix_append front more)
    · rfl

/-- Any blanks, and then what `read` takes. -/
def behindBlanks (read : Reader α) : Reader α := fun cs =>
  read (skipBlanks cs)

/-- To skip the blanks of a front leaves a front. -/
theorem skipBlanks_front {front cs : List Char} (h : front <+: cs) :
    skipBlanks front <+: skipBlanks cs := by
  obtain ⟨more, rfl⟩ := h
  rw [skipBlanks, skipBlanks, List.dropWhile_append]
  split
  · rename_i hnone
    rw [List.isEmpty_iff.1 hnone]
    exact List.nil_prefix
  · exact List.prefix_append _ _

theorem behindBlanks_ignoresRest {read : Reader α} (h : IgnoresRest read) :
    IgnoresRest (behindBlanks read) := by
  intro cs a rest hread
  obtain ⟨taken, htaken, hcut⟩ := h _ _ _ hread
  have hcs : cs = cs.takeWhile isBlank ++ (taken ++ rest) := by
    rw [← htaken, skipBlanks, List.takeWhile_append_dropWhile]
  refine ⟨cs.takeWhile isBlank ++ taken, by rw [List.append_assoc, ← hcs], ?_⟩
  intro rest' hfront
  -- behind the same blanks stands a front of what stood there before
  have hskip : skipBlanks (cs.takeWhile isBlank ++ taken ++ rest') = taken ++ rest' := by
    rw [List.append_assoc]
    apply (span_append (fun c hc => List.mem_takeWhile_imp hc) _).2
    have hshorter : taken ++ rest' <+: skipBlanks cs :=
      htaken ▸ (List.prefix_append_right_inj _).2 hfront
    exact fun c hc => not_of_mem_head?_dropWhile c (head?_of_front hshorter c hc)
  rw [behindBlanks, hskip]
  exact hcut rest' hfront

theorem behindBlanks_failsOnFronts {read : Reader α} (h : FailsOnFronts read) :
    FailsOnFronts (behindBlanks read) := by
  intro cs front hnone hfront
  exact h _ _ hnone (skipBlanks_front hfront)

/-! ## Choice, option and repetition -/

/-- What `first` takes, or where it takes nothing what `second` does. -/
def either (first second : Reader α) : Reader α := fun cs =>
  (first cs).or (second cs)

theorem either_ignoresRest {first second : Reader α} (h₁ : IgnoresRest first)
    (hfails : FailsOnFronts first) (h₂ : IgnoresRest second) :
    IgnoresRest (either first second) := by
  intro cs a rest hread
  rcases Option.or_eq_some_iff.1 hread with hfirst | ⟨hnone, hsecond⟩
  · obtain ⟨taken, rfl, hcut⟩ := h₁ _ _ _ hfirst
    refine ⟨taken, rfl, ?_⟩
    intro rest' hfront
    rw [either, hcut rest' hfront, Option.some_or]
  · obtain ⟨taken, rfl, hcut⟩ := h₂ _ _ _ hsecond
    refine ⟨taken, rfl, ?_⟩
    intro rest' hfront
    have hstill := hfails _ _ hnone ((List.prefix_append_right_inj taken).2 hfront)
    rw [either, hstill, Option.none_or]
    exact hcut rest' hfront

theorem either_failsOnFronts {first second : Reader α} (h₁ : FailsOnFronts first)
    (h₂ : FailsOnFronts second) : FailsOnFronts (either first second) := by
  intro cs front hnone hfront
  obtain ⟨hfirst, hsecond⟩ := Option.or_eq_none_iff.1 hnone
  exact Option.or_eq_none_iff.2 ⟨h₁ _ _ hfirst hfront, h₂ _ _ hsecond hfront⟩

/-- What `read` takes, or nothing. -/
def orNothing (read : Reader α) : Reader (Option α) := fun cs =>
  match read cs with
  | some (a, rest) => some (some a, rest)
  | none => some (none, cs)

theorem orNothing_ne_none (read : Reader α) (cs : List Char) : orNothing read cs ≠ none := by
  unfold orNothing
  split <;> simp

theorem orNothing_ignoresRest {read : Reader α} (h : IgnoresRest read)
    (hfails : FailsOnFronts read) : IgnoresRest (orNothing read) := by
  intro cs a rest hread
  unfold orNothing at hread
  split at hread
  · rename_i a' rest' hsome
    simp only [Option.some.injEq, Prod.mk.injEq] at hread
    obtain ⟨rfl, rfl⟩ := hread
    obtain ⟨taken, rfl, hcut⟩ := h _ _ _ hsome
    refine ⟨taken, rfl, ?_⟩
    intro rest' hfront
    simp only [orNothing, hcut rest' hfront]
  · rename_i hnone
    simp only [Option.some.injEq, Prod.mk.injEq] at hread
    obtain ⟨rfl, rfl⟩ := hread
    refine ⟨[], rfl, ?_⟩
    intro rest' hfront
    simp only [orNothing, List.nil_append, hfails _ _ hnone hfront]

/-- The values that are taken one behind the other are taken as well where what is left ends
earlier. -/
theorem takes_ignoresRest {read : Reader α} (h : IgnoresRest read) {cs rest : List Char}
    {as : List α} (htakes : Takes read cs as rest) :
    ∃ taken, cs = taken ++ rest ∧
      ∀ rest', rest' <+: rest → Takes read (taken ++ rest') as rest' := by
  induction htakes with
  | nil => exact ⟨[], rfl, fun _ _ => .nil⟩
  | @cons cs middle rest a as hread _ ih =>
    obtain ⟨taken₁, rfl, hcut₁⟩ := h _ _ _ hread
    obtain ⟨taken₂, rfl, hcut₂⟩ := ih
    refine ⟨taken₁ ++ taken₂, by simp, ?_⟩
    intro rest' hfront
    rw [List.append_assoc]
    exact .cons (hcut₁ _ ((List.prefix_append_right_inj _).2 hfront)) (hcut₂ _ hfront)

theorem repeated_ignoresRest {read : Reader α} (hc : Consumes read) (h : IgnoresRest read)
    (hfails : FailsOnFronts read) : IgnoresRest (repeated read hc) := by
  intro cs as rest hread
  obtain ⟨htakes, hnone⟩ := many_eq_iff_takes.1 (Option.some.inj hread)
  obtain ⟨taken, rfl, hcut⟩ := takes_ignoresRest h htakes
  refine ⟨taken, rfl, ?_⟩
  intro rest' hfront
  exact congrArg some (many_eq_iff_takes.2 ⟨hcut rest' hfront, hfails _ _ hnone hfront⟩)

end MarkupQuery.Reader

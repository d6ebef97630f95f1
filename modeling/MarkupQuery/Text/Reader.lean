/-!
# MarkupQuery.Text.Reader — reading from the front of a text

A reader takes a value from the front of a text and answers it together with the text
it left, or answers nothing and takes nothing. A reader that consumes leaves a proper
tail of its text; such a reader can be repeated until it answers nothing, and `many`
does so.
-/

namespace MarkupQuery

/-- A reader answers the value it took and the text it left, or nothing. -/
abbrev Reader (α : Type) := List Char → Option (α × List Char)

namespace Reader

variable {α : Type}

/-- Whenever `read` answers, it leaves a proper tail of its text. -/
def Consumes (read : Reader α) : Prop :=
  ∀ (cs : List Char) (a : α) (rest : List Char),
    read cs = some (a, rest) → rest <:+ cs ∧ rest.length < cs.length

/-- What leaves a tail of a text leaves a proper tail of the text with one character more. -/
theorem leaves_behind {c : Char} {cs rest : List Char} (h : rest <:+ cs) :
    rest <:+ c :: cs ∧ rest.length < (c :: cs).length :=
  ⟨h.trans (List.suffix_cons c cs), Nat.lt_succ_of_le h.length_le⟩

/-! ## Changing the value -/

/-- The reader that answers `f a` where `read` answers `a`. -/
def mapValue {β : Type} (f : α → β) (read : Reader α) : Reader β := fun cs =>
  match read cs with
  | none => none
  | some (a, rest) => some (f a, rest)

/-- Only the value changes, not what is taken. -/
theorem mapValue_eq_some_iff {β : Type} {f : α → β} {read : Reader α} {cs rest : List Char}
    {b : β} : mapValue f read cs = some (b, rest) ↔
      ∃ a, read cs = some (a, rest) ∧ f a = b := by
  unfold mapValue
  split
  · rename_i h
    simp [h]
  · rename_i a tail h
    simp only [h, Option.some.injEq, Prod.mk.injEq]
    constructor
    · rintro ⟨rfl, rfl⟩
      exact ⟨a, ⟨rfl, rfl⟩, rfl⟩
    · rintro ⟨a', ⟨rfl, rfl⟩, rfl⟩
      exact ⟨rfl, rfl⟩

/-- A change of the value changes nothing about consuming. -/
theorem mapValue_consumes {β : Type} (f : α → β) {read : Reader α} (h : Consumes read) :
    Consumes (mapValue f read) := by
  intro cs b rest hb
  rcases mapValue_eq_some_iff.1 hb with ⟨a, ha, -⟩
  exact h _ _ _ ha

/-! ## Runs of characters -/

/-- One or more characters that satisfy `p`, as many as there are. -/
def run (p : Char → Bool) : Reader (List Char) := fun cs =>
  match cs.takeWhile p with
  | [] => none
  | c :: taken => some (c :: taken, cs.dropWhile p)

/-- The text before the first `close`; the `close` itself is taken and dropped. -/
def before (close : Char) : Reader (List Char) := fun cs =>
  match cs.dropWhile (· != close) with
  | [] => none
  | _ :: rest => some (cs.takeWhile (· != close), rest)

/-- The search behind `upTo`, with the characters passed so far, latest first. -/
def seek (here : List Char → Bool) (passed : List Char) : Reader (List Char)
  | [] => if here [] then some (passed.reverse, []) else none
  | c :: cs =>
    if here (c :: cs) then some (passed.reverse, c :: cs) else seek here (c :: passed) cs

/-- The text up to the first place where `here` holds of what follows; that place and
all behind it are left. -/
def upTo (here : List Char → Bool) : Reader (List Char) :=
  seek here []

/-- A run is not empty, satisfies its test, and stops where the test first fails. -/
theorem run_eq_some_iff {p : Char → Bool} {cs taken rest : List Char} :
    run p cs = some (taken, rest) ↔
      taken ≠ [] ∧ taken = cs.takeWhile p ∧ rest = cs.dropWhile p := by
  unfold run
  cases cs.takeWhile p with
  | nil => simp; intro h h'; exact absurd h' h
  | cons c tail =>
    simp only [Option.some.injEq, Prod.mk.injEq]
    constructor
    · rintro ⟨rfl, rfl⟩; simp
    · rintro ⟨-, rfl, rfl⟩; simp

/-- A run takes at least one character. -/
theorem run_consumes (p : Char → Bool) : Consumes (run p) := by
  intro cs taken rest h
  rcases run_eq_some_iff.1 h with ⟨hne, rfl, rfl⟩
  have hsplit : cs.takeWhile p ++ cs.dropWhile p = cs := List.takeWhile_append_dropWhile
  refine ⟨List.dropWhile_suffix p, ?_⟩
  have hlen := congrArg List.length hsplit
  have hpos := List.length_pos_iff.2 hne
  simp only [List.length_append] at hlen
  omega

/-- What `before` takes is the front of its text, then the closing character. -/
theorem eq_append_of_before {close : Char} {cs run rest : List Char}
    (h : before close cs = some (run, rest)) : cs = run ++ close :: rest := by
  unfold before at h
  split at h
  · simp at h
  · rename_i c tail heq
    simp only [Option.some.injEq, Prod.mk.injEq] at h
    rcases h with ⟨rfl, rfl⟩
    have hc : c = close := by
      have := List.head?_dropWhile_not (· != close) cs
      rw [heq] at this
      simpa using this
    subst hc
    rw [← heq, List.takeWhile_append_dropWhile]

/-- What `before` takes reaches up to the first closing character. -/
theorem before_eq_some_iff {close : Char} {cs run rest : List Char} :
    before close cs = some (run, rest) ↔ cs = run ++ close :: rest ∧ ∀ c ∈ run, c ≠ close := by
  constructor
  · intro h
    refine ⟨eq_append_of_before h, ?_⟩
    unfold before at h
    split at h
    · simp at h
    · simp only [Option.some.injEq, Prod.mk.injEq] at h
      rcases h with ⟨rfl, -⟩
      intro c hc
      have := List.all_takeWhile (p := (· != close)) (l := cs)
      simpa using List.all_eq_true.1 this c hc
  · rintro ⟨rfl, hrun⟩
    have hpass : ∀ c ∈ run, (c != close) = true := by
      intro c hc
      simpa using hrun c hc
    simp [before, List.dropWhile_append_of_pos hpass, List.takeWhile_append_of_pos hpass]

/-- A run and the character that closes it are a proper front of the text. -/
theorem before_consumes (close : Char) : Consumes (before close) := by
  intro cs run rest h
  have heq := eq_append_of_before h
  refine ⟨⟨run ++ [close], by simp [heq]⟩, ?_⟩
  simp [heq]; omega

/-- A search that ends has only moved characters into the run it passed. -/
theorem eq_append_of_seek {here : List Char → Bool} {passed cs run rest : List Char}
    (h : seek here passed cs = some (run, rest)) : passed.reverse ++ cs = run ++ rest := by
  induction cs generalizing passed with
  | nil =>
    simp only [seek] at h
    split at h
    · simp only [Option.some.injEq, Prod.mk.injEq] at h
      rcases h with ⟨rfl, rfl⟩
      rfl
    · simp at h
  | cons c cs ih =>
    simp only [seek] at h
    split at h
    · simp only [Option.some.injEq, Prod.mk.injEq] at h
      rcases h with ⟨rfl, rfl⟩
      rfl
    · simpa using ih h

/-- A search splits its text in two. -/
theorem eq_append_of_upTo {here : List Char → Bool} {cs run rest : List Char}
    (h : upTo here cs = some (run, rest)) : cs = run ++ rest := by
  simpa using eq_append_of_seek h

/-- A search passes every place where `here` fails and stops at the first where it holds. -/
theorem seek_append {here : List Char → Bool} {run rest : List Char}
    (hrun : ∀ u v, run = u ++ v → v ≠ [] → here (v ++ rest) = false) (hrest : here rest = true)
    (passed : List Char) : seek here passed (run ++ rest) = some (passed.reverse ++ run, rest) := by
  induction run generalizing passed with
  | nil => cases rest <;> simp [seek, hrest]
  | cons c run ih =>
    have hhere := hrun [] (c :: run) rfl (by simp)
    have hlater : ∀ u v, run = u ++ v → v ≠ [] → here (v ++ rest) = false := by
      intro u v huv
      exact hrun (c :: u) v (by rw [huv, List.cons_append])
    rw [List.cons_append] at hhere ⊢
    rw [seek, if_neg (by simp [hhere]), ih hlater]
    simp

/-- A search takes what stands before the first place where `here` holds. -/
theorem upTo_append {here : List Char → Bool} {run rest : List Char}
    (hrun : ∀ u v, run = u ++ v → v ≠ [] → here (v ++ rest) = false) (hrest : here rest = true) :
    upTo here (run ++ rest) = some (run, rest) :=
  seek_append hrun hrest []

/-! ## Repetition -/

/-- The repetition behind `many`, with the values taken so far, latest first. -/
def manyOnto (read : Reader α) (h : Consumes read) (taken : List α) (cs : List Char) :
    List α × List Char :=
  match e : read cs with
  | none => (taken.reverse, cs)
  | some (a, rest) =>
    have := (h cs a rest e).2
    manyOnto read h (a :: taken) rest
termination_by cs.length

/-- As many values as `read` answers one behind the other, and the text left. -/
def many (read : Reader α) (h : Consumes read) (cs : List Char) : List α × List Char :=
  manyOnto read h [] cs

/-- The values taken before only stand in front. -/
theorem manyOnto_eq (read : Reader α) (h : Consumes read) (taken : List α) (cs : List Char) :
    manyOnto read h taken cs =
      (taken.reverse ++ (many read h cs).1, (many read h cs).2) := by
  induction hn : cs.length using Nat.strongRecOn generalizing taken cs with
  | ind n ih =>
    subst hn
    unfold many
    rw [manyOnto, manyOnto]
    split
    · simp
    · rename_i a rest e
      rw [ih _ (h _ _ _ e).2 (a :: taken) rest rfl, ih _ (h _ _ _ e).2 [a] rest rfl]
      simp

/-- Repetition stops where the reader answers nothing. -/
theorem many_of_none {read : Reader α} {h : Consumes read} {cs : List Char}
    (e : read cs = none) : many read h cs = ([], cs) := by
  unfold many
  rw [manyOnto]
  split
  · rfl
  · rename_i e'
    rw [e] at e'
    simp at e'

/-- Repetition takes one value and goes on behind it. -/
theorem many_of_some {read : Reader α} {h : Consumes read} {cs rest : List Char} {a : α}
    (e : read cs = some (a, rest)) :
    many read h cs = (a :: (many read h rest).1, (many read h rest).2) := by
  conv => lhs; unfold many
  rw [manyOnto]
  split
  · rename_i e'
    rw [e] at e'
    simp at e'
  · rename_i e'
    rw [e] at e'
    simp only [Option.some.injEq, Prod.mk.injEq] at e'
    rcases e' with ⟨rfl, rfl⟩
    rw [manyOnto_eq]
    simp

/-- What repetition leaves is a tail of its text. -/
theorem many_suffix (read : Reader α) (h : Consumes read) (cs : List Char) :
    (many read h cs).2 <:+ cs := by
  induction hn : cs.length using Nat.strongRecOn generalizing cs with
  | ind n ih =>
    subst hn
    cases e : read cs with
    | none => simp [many_of_none e]
    | some p =>
      rcases p with ⟨a, rest⟩
      rw [many_of_some e]
      exact (ih _ (h _ _ _ e).2 rest rfl).trans (h _ _ _ e).1

end Reader

end MarkupQuery

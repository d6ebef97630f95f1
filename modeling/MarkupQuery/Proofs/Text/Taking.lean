import Mathlib.Data.List.TakeWhile
import MarkupQuery.Text.Reader

/-!
# MarkupQuery.Proofs.Text.Taking — what runs, searches and repetitions take

A run ends at the first character that does not belong to it (`run_append`), a search stops
at the first place that it looks for (`upTo_eq_some_iff`), and a repetition takes values one
behind the other until its reader answers nothing (`many_eq_iff_takes`).
-/

namespace MarkupQuery.Reader

variable {α β : Type}

/-! ## Values -/

/-- A reader fails whatever is made of its values. -/
theorem mapValue_eq_none_iff {f : α → β} {read : Reader α} {cs : List Char} :
    mapValue f read cs = none ↔ read cs = none := by
  unfold mapValue
  split <;> simp [*]

/-! ## Parts of a text -/

/-- What starts with a character inside of a front of a text, and does not hold that character
again, ends inside of the front if the character stands behind it. -/
theorem eq_append_of_lt {c : Char} {before body after front t : List Char}
    (h : before ++ c :: (body ++ after) = front ++ c :: t) (hbody : c ∉ body)
    (hlt : before.length < front.length) :
    ∃ more, front = before ++ c :: (body ++ more) := by
  obtain ⟨v, rfl⟩ : before <+: front :=
    List.prefix_of_prefix_length_le ⟨_, h⟩ ⟨_, rfl⟩ hlt.le
  rw [List.append_assoc] at h
  have hplace : c :: (body ++ after) = v ++ c :: t := List.append_cancel_left h
  cases v with
  | nil => simp at hlt
  | cons d v =>
    obtain ⟨rfl, hrest⟩ := List.cons.inj hplace
    rcases List.append_eq_append_iff.1 hrest with ⟨more, hmore, -⟩ | ⟨more, hmore, hafter⟩
    · exact ⟨more, by rw [hmore]⟩
    · cases more with
      | nil => exact ⟨[], by rw [hmore, List.append_nil, List.append_nil]⟩
      | cons d more =>
        -- the character behind the front would lie in the body
        obtain ⟨rfl, -⟩ := List.cons.inj hafter
        exact absurd (by simp [hmore]) hbody

/-! ## Runs -/

/-- A front of a text starts as the text does, unless it is empty. -/
theorem head?_of_front {front cs : List Char} (h : front <+: cs) :
    ∀ c ∈ front.head?, c ∈ cs.head? := by
  obtain ⟨more, rfl⟩ := h
  cases front with
  | nil => simp
  | cons c front => exact fun d hd => hd

/-- Behind a run stands a character that does not belong to it, if any. -/
theorem not_of_mem_head?_dropWhile {p : Char → Bool} {cs : List Char} :
    ∀ c ∈ (cs.dropWhile p).head?, p c = false := by
  intro c hc
  have hhead := List.head?_dropWhile_not p cs
  rwa [hc] at hhead

/-- Characters that satisfy a test are split from a text that starts with none. -/
theorem span_append {p : Char → Bool} {taken t : List Char} (htaken : ∀ c ∈ taken, p c = true)
    (ht : ∀ c ∈ t.head?, p c = false) :
    (taken ++ t).takeWhile p = taken ∧ (taken ++ t).dropWhile p = t := by
  rw [List.takeWhile_append_of_pos htaken, List.dropWhile_append_of_pos htaken]
  cases t with
  | nil => simp
  | cons c t => simp [ht c rfl]

/-- A run is read up to the first character that does not belong to it. -/
theorem run_append {p : Char → Bool} {taken t : List Char} (hne : taken ≠ [])
    (htaken : ∀ c ∈ taken, p c = true) (ht : ∀ c ∈ t.head?, p c = false) :
    run p (taken ++ t) = some (taken, t) := by
  obtain ⟨htake, hdrop⟩ := span_append htaken ht
  exact run_eq_some_iff.2 ⟨hne, htake.symm, hdrop.symm⟩

/-- A run is what satisfies the test, up to where it fails or the text ends. -/
theorem run_eq_some_iff_append {p : Char → Bool} {cs taken rest : List Char} :
    run p cs = some (taken, rest) ↔ taken ≠ [] ∧ (∀ c ∈ taken, p c = true) ∧
      (∀ c ∈ rest.head?, p c = false) ∧ cs = taken ++ rest := by
  constructor
  · intro h
    obtain ⟨hne, rfl, rfl⟩ := run_eq_some_iff.1 h
    exact ⟨hne, fun c hc => List.mem_takeWhile_imp hc, not_of_mem_head?_dropWhile,
      List.takeWhile_append_dropWhile.symm⟩
  · rintro ⟨hne, htaken, hrest, rfl⟩
    exact run_append hne htaken hrest

/-- There is no run where the first character does not belong to it. -/
theorem run_eq_none_iff {p : Char → Bool} {cs : List Char} :
    run p cs = none ↔ ∀ c ∈ cs.head?, p c = false := by
  cases cs with
  | nil => simp [run]
  | cons c cs => cases hc : p c <;> simp [run, hc]

/-! ## Searches -/

/-- The text before a `close` is read unless there is none. -/
theorem before_eq_none_iff {close : Char} {cs : List Char} :
    before close cs = none ↔ close ∉ cs := by
  constructor
  · intro hnone hmem
    obtain ⟨run, rest, hcs, hrun⟩ := List.eq_append_cons_of_mem hmem
    have hread : before close cs = some (run, rest) :=
      before_eq_some_iff.2 ⟨hcs, fun c hc heq => hrun (heq ▸ hc)⟩
    rw [hnone] at hread
    simp at hread
  · intro hno
    cases hread : before close cs with
    | none => rfl
    | some answer =>
      have hcs := eq_append_of_before hread
      exact absurd (by simp [hcs]) hno

/-- A search passes places where `here` fails and stops where it holds. -/
theorem seek_sound {here : List Char → Bool} {passed cs run rest : List Char}
    (h : seek here passed cs = some (run, rest)) :
    ∃ front, run = passed.reverse ++ front ∧ cs = front ++ rest ∧ here rest = true ∧
      ∀ u v, front = u ++ v → v ≠ [] → here (v ++ rest) = false := by
  induction cs generalizing passed with
  | nil =>
    simp only [seek] at h
    split at h
    · rename_i hhere
      simp only [Option.some.injEq, Prod.mk.injEq] at h
      obtain ⟨rfl, rfl⟩ := h
      refine ⟨[], by simp, rfl, hhere, ?_⟩
      intro u v huv hne
      exact absurd (List.append_eq_nil_iff.1 huv.symm).2 hne
    · simp at h
  | cons c cs ih =>
    simp only [seek] at h
    split at h
    · rename_i hhere
      simp only [Option.some.injEq, Prod.mk.injEq] at h
      obtain ⟨rfl, rfl⟩ := h
      refine ⟨[], by simp, rfl, hhere, ?_⟩
      intro u v huv hne
      exact absurd (List.append_eq_nil_iff.1 huv.symm).2 hne
    · rename_i hpass
      obtain ⟨front, rfl, rfl, hhere, hfirst⟩ := ih h
      refine ⟨c :: front, by simp, rfl, hhere, ?_⟩
      intro u v huv hne
      cases u with
      | nil =>
        obtain rfl : c :: front = v := huv
        simpa using hpass
      | cons d u =>
        simp only [List.cons_append, List.cons.injEq] at huv
        exact hfirst u v huv.2 hne

/-- A search splits its text at the first place where `here` holds. -/
theorem upTo_eq_some_iff {here : List Char → Bool} {cs run rest : List Char} :
    upTo here cs = some (run, rest) ↔ cs = run ++ rest ∧ here rest = true ∧
      ∀ u v, run = u ++ v → v ≠ [] → here (v ++ rest) = false := by
  constructor
  · intro h
    obtain ⟨front, rfl, hcs, hhere, hfirst⟩ := seek_sound h
    exact ⟨hcs, hhere, hfirst⟩
  · rintro ⟨rfl, hhere, hfirst⟩
    exact upTo_append hfirst hhere

/-- A search that passes a text as a whole passes every place of it. -/
theorem seek_eq_none {here : List Char → Bool} {passed cs : List Char}
    (h : seek here passed cs = none) : ∀ s, s <:+ cs → here s = false := by
  induction cs generalizing passed with
  | nil =>
    intro s hs
    obtain rfl := List.eq_nil_of_suffix_nil hs
    simpa [seek] using h
  | cons c cs ih =>
    simp only [seek] at h
    split at h
    · simp at h
    · rename_i hpass
      intro s hs
      rcases List.suffix_cons_iff.1 hs with rfl | hs
      · simpa using hpass
      · exact ih h s hs

/-- A search fails exactly where `here` holds at no place. -/
theorem upTo_eq_none_iff {here : List Char → Bool} {cs : List Char} :
    upTo here cs = none ↔ ∀ s, s <:+ cs → here s = false := by
  constructor
  · exact seek_eq_none
  · intro h
    cases hup : upTo here cs with
    | none => rfl
    | some answer =>
      obtain ⟨hcs, hhere, -⟩ := upTo_eq_some_iff.1 hup
      rw [h answer.2 ⟨answer.1, hcs.symm⟩] at hhere
      simp at hhere

/-! ## Repetition -/

/-- The reader takes these values from the front of a text, one behind the other. -/
inductive Takes (read : Reader α) : List Char → List α → List Char → Prop where
  | nil {cs : List Char} : Takes read cs [] cs
  | cons {cs middle rest : List Char} {a : α} {as : List α} :
      read cs = some (a, middle) → Takes read middle as rest → Takes read cs (a :: as) rest

/-- Taken values were read somewhere. -/
theorem Takes.exists_read {read : Reader α} {cs rest : List Char} {as : List α}
    (h : Takes read cs as rest) {a : α} (ha : a ∈ as) :
    ∃ here behind, read here = some (a, behind) := by
  induction h with
  | nil => simp at ha
  | @cons cs middle rest b as hread _ ih =>
    rcases List.mem_cons.1 ha with rfl | ha
    · exact ⟨cs, middle, hread⟩
    · exact ih ha

/-- Behind values that are taken others may be taken. -/
theorem Takes.trans {read : Reader α} {cs middle rest : List Char} {as bs : List α}
    (has : Takes read cs as middle) (hbs : Takes read middle bs rest) :
    Takes read cs (as ++ bs) rest := by
  induction has with
  | nil => exact hbs
  | cons hread _ ih => exact .cons hread (ih hbs)

/-- A repetition takes values until the reader answers nothing. -/
theorem many_takes (read : Reader α) (h : Consumes read) (cs : List Char) :
    Takes read cs (many read h cs).1 (many read h cs).2 ∧ read (many read h cs).2 = none := by
  induction hn : cs.length using Nat.strongRecOn generalizing cs with
  | ind n ih =>
    subst hn
    cases hread : read cs with
    | none =>
      rw [many_of_none hread]
      exact ⟨.nil, hread⟩
    | some answer =>
      obtain ⟨a, middle⟩ := answer
      obtain ⟨htakes, hnone⟩ := ih _ (h _ _ _ hread).2 middle rfl
      rw [many_of_some hread]
      exact ⟨.cons hread htakes, hnone⟩

/-- What a repetition takes behind values taken already. -/
theorem many_of_takes {read : Reader α} {h : Consumes read} {cs rest : List Char} {as : List α}
    (htakes : Takes read cs as rest) :
    many read h cs = (as ++ (many read h rest).1, (many read h rest).2) := by
  induction htakes with
  | nil => rfl
  | cons hread _ ih => rw [many_of_some hread, ih, List.cons_append]

/-- A repetition takes exactly the values up to where the reader answers nothing. -/
theorem many_eq_iff_takes {read : Reader α} {h : Consumes read} {cs rest : List Char}
    {as : List α} :
    many read h cs = (as, rest) ↔ Takes read cs as rest ∧ read rest = none := by
  constructor
  · intro hmany
    have htakes := many_takes read h cs
    rwa [hmany] at htakes
  · rintro ⟨htakes, hnone⟩
    rw [many_of_takes htakes, many_of_none hnone, List.append_nil]

end MarkupQuery.Reader

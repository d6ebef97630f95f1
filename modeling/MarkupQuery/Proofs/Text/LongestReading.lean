import MarkupQuery.Text.Reader

/-!
# MarkupQuery.Proofs.Text.LongestReading — readers that take the longest sentence

A language says which texts are its sentences, and which values they have. A reader that
takes as much as it can, and never goes back, may miss the longest sentence of a language
at the front of its text, or stop inside of one. `ReadsLongest` says that it does neither,
and is what a sequence or a repetition needs to know of its parts:

* whatever is taken is a sentence (`sound`);
* where some sentence stands at the front of the text at least that much is taken, with
  the same value if nothing more is; and no more is taken where a text follows that stops
  the reader (`reach`).

A sequence reads the longest sentence if each text that can follow its first part stops
the reader of that part (`ReadsLongest.andThen`), and so does a repetition
(`ReadsLongest.repeated`). A sentence has only one value (`ReadsLongest.unique`).
-/

namespace MarkupQuery.Reader

variable {α β : Type}

/-- The sentences of a language with their values. -/
abbrev Sentences (α : Type) := List Char → α → Prop

/-- The reader takes the longest sentence at the front of a text. Behind a sentence it
goes no further if what follows satisfies `stop`. -/
structure ReadsLongest (read : Reader α) (L : Sentences α) (stop : List Char → Prop) : Prop where
  sound : ∀ {cs rest : List Char} {a : α}, read cs = some (a, rest) →
    ∃ p, cs = p ++ rest ∧ L p a
  reach : ∀ {p : List Char} {a : α} (tail : List Char), L p a →
    ∃ b rest, read (p ++ tail) = some (b, rest) ∧ rest <:+ tail ∧
      (rest = tail → b = a) ∧ (stop tail → rest = tail)

namespace ReadsLongest

variable {read : Reader α} {L : Sentences α} {stop : List Char → Prop}

/-! ## Consequences -/

/-- In front of a text that stops the reader, a sentence is read exactly. -/
theorem exact (h : ReadsLongest read L stop) {p tail : List Char} {a : α} (hp : L p a)
    (hs : stop tail) : read (p ++ tail) = some (a, tail) := by
  rcases h.reach tail hp with ⟨b, rest, hread, -, hvalue, hstop⟩
  rw [hread, hvalue (hstop hs), hstop hs]

/-- A sentence has one value. -/
theorem unique (h : ReadsLongest read L stop) {p : List Char} {a b : α} (ha : L p a)
    (hb : L p b) : a = b := by
  rcases h.reach [] ha with ⟨a', rest, hread, hrest, hvalue, -⟩
  rcases h.reach [] hb with ⟨b', rest', hread', -, hvalue', -⟩
  have hnil : rest = [] := List.eq_nil_of_suffix_nil hrest
  rw [hread] at hread'
  simp only [Option.some.injEq, Prod.mk.injEq] at hread'
  rw [← hvalue hnil, ← hvalue' (hread'.2 ▸ hnil), hread'.1]

/-- A text is split in only one way into a sentence and what stops the reader. -/
theorem split_unique (h : ReadsLongest read L stop) {p q s t : List Char} {a b : α}
    (hp : L p a) (hq : L q b) (hs : stop s) (ht : stop t) (heq : p ++ s = q ++ t) :
    p = q ∧ s = t := by
  have hread := h.exact hp hs
  rw [heq, h.exact hq ht] at hread
  simp only [Option.some.injEq, Prod.mk.injEq] at hread
  obtain ⟨-, rfl⟩ := hread
  exact ⟨List.append_cancel_right heq, rfl⟩

/-- Nothing is read exactly where no sentence stands at the front of the text. -/
theorem eq_none_iff (h : ReadsLongest read L stop) {cs : List Char} :
    read cs = none ↔ ∀ p a, p <+: cs → ¬ L p a := by
  constructor
  · rintro hread p a ⟨tail, rfl⟩ hp
    rcases h.reach tail hp with ⟨b, rest, hread', -⟩
    rw [hread] at hread'
    simp at hread'
  · intro hnot
    cases hread : read cs with
    | none => rfl
    | some answer =>
      rcases answer with ⟨a, rest⟩
      rcases h.sound hread with ⟨p, rfl, hp⟩
      exact absurd hp (hnot p a (List.prefix_append p rest))

/-- What is read is the longest sentence at the front of the text. -/
theorem eq_some_iff (h : ReadsLongest read L stop) {cs rest : List Char} {a : α} :
    read cs = some (a, rest) ↔ ∃ p, cs = p ++ rest ∧ L p a ∧
      ∀ p' a', L p' a' → p' <+: cs → p'.length ≤ p.length := by
  constructor
  · intro hread
    rcases h.sound hread with ⟨p, rfl, hp⟩
    refine ⟨p, rfl, hp, ?_⟩
    rintro p' a' ha' ⟨tail, htail⟩
    rcases h.reach tail ha' with ⟨b, rest', hread', hrest', -⟩
    rw [htail, hread] at hread'
    simp only [Option.some.injEq, Prod.mk.injEq] at hread'
    rcases hread' with ⟨-, rfl⟩
    have hlen := congrArg List.length htail
    have hle := hrest'.length_le
    simp only [List.length_append] at hlen
    omega
  · rintro ⟨p, rfl, hp, hmax⟩
    rcases h.reach rest hp with ⟨b, rest', hread, hrest', hvalue, -⟩
    rcases h.sound hread with ⟨q, hsplit, hq⟩
    -- the sentence that is read is no longer than this one, so it leaves the same text
    have hle := hmax q b hq ⟨rest', hsplit.symm⟩
    have hlen := congrArg List.length hsplit
    simp only [List.length_append] at hlen
    have heq : rest' = rest := hrest'.eq_of_length_le (by omega)
    rw [hread, hvalue heq, heq]

/-! ## Other words for the same -/

/-- The language and the texts that stop the reader may be described differently. -/
theorem congr {L' : Sentences α} {stop' : List Char → Prop} (h : ReadsLongest read L stop)
    (hL : ∀ p a, L' p a ↔ L p a) (hs : ∀ t, stop' t → stop t) :
    ReadsLongest read L' stop' := by
  refine ⟨?_, ?_⟩
  · intro cs rest a hread
    rcases h.sound hread with ⟨p, rfl, hp⟩
    exact ⟨p, rfl, (hL p a).2 hp⟩
  · intro p a tail hp
    rcases h.reach tail ((hL p a).1 hp) with ⟨b, rest, hread, hrest, hvalue, hstop⟩
    exact ⟨b, rest, hread, hrest, hvalue, fun ht => hstop (hs tail ht)⟩

/-- Changing the values changes nothing else. -/
theorem mapValue (h : ReadsLongest read L stop) (f : α → β) :
    ReadsLongest (Reader.mapValue f read) (fun p b => ∃ a, L p a ∧ f a = b) stop := by
  refine ⟨?_, ?_⟩
  · intro cs rest b hread
    rcases mapValue_eq_some_iff.1 hread with ⟨a, ha, rfl⟩
    rcases h.sound ha with ⟨p, rfl, hp⟩
    exact ⟨p, rfl, a, hp, rfl⟩
  · rintro p b tail ⟨a, ha, rfl⟩
    rcases h.reach tail ha with ⟨a', rest, hread, hrest, hvalue, hstop⟩
    refine ⟨f a', rest, mapValue_eq_some_iff.2 ⟨a', hread, rfl⟩, hrest, ?_, hstop⟩
    intro heq
    rw [hvalue heq]

end ReadsLongest

/-! ## Sequences -/

/-- Two readers one behind the other. -/
def andThen (first : Reader α) (second : Reader β) : Reader (α × β) := fun cs =>
  match first cs with
  | none => none
  | some (a, cs) => mapValue (fun b => (a, b)) second cs

/-- A sequence takes what its two readers take. -/
theorem andThen_eq_some_iff {first : Reader α} {second : Reader β} {cs rest : List Char}
    {a : α} {b : β} : andThen first second cs = some ((a, b), rest) ↔
      ∃ middle, first cs = some (a, middle) ∧ second middle = some (b, rest) := by
  unfold andThen
  constructor
  · intro h
    split at h
    · simp at h
    · rename_i a' middle hfirst
      rcases mapValue_eq_some_iff.1 h with ⟨b', hb', heq⟩
      simp only [Prod.mk.injEq] at heq
      rcases heq with ⟨rfl, rfl⟩
      exact ⟨middle, hfirst, hb'⟩
  · rintro ⟨middle, hfirst, hsecond⟩
    simp only [hfirst]
    exact mapValue_eq_some_iff.2 ⟨b, hsecond, rfl⟩

/-- A sentence of the first language, then one of the second. -/
def Sentences.Then (L : Sentences α) (M : Sentences β) : Sentences (α × β) := fun p ab =>
  ∃ q r, p = q ++ r ∧ L q ab.1 ∧ M r ab.2

/-- A sequence reads the longest sentence if the sentences of its second part, unless
empty, stop the reader of the first. -/
theorem ReadsLongest.andThen {first : Reader α} {second : Reader β} {L : Sentences α}
    {M : Sentences β} {stop stop₁ stop₂ : List Char → Prop}
    (h₁ : ReadsLongest first L stop₁) (h₂ : ReadsLongest second M stop₂)
    (hnext : ∀ r b t, M r b → r ≠ [] → stop₁ (r ++ t))
    (hs₁ : ∀ b t, M [] b → stop t → stop₁ t) (hs₂ : ∀ t, stop t → stop₂ t) :
    ReadsLongest (andThen first second) (L.Then M) stop := by
  refine ⟨?_, ?_⟩
  · rintro cs rest ⟨a, b⟩ hread
    rcases andThen_eq_some_iff.1 hread with ⟨middle, hfirst, hsecond⟩
    rcases h₁.sound hfirst with ⟨q, rfl, hq⟩
    rcases h₂.sound hsecond with ⟨r, rfl, hr⟩
    exact ⟨q ++ r, by simp, q, r, rfl, hq, hr⟩
  · rintro p ⟨a, b⟩ tail ⟨q, r, rfl, hq, hr⟩
    rw [List.append_assoc]
    by_cases hnil : r = []
    · -- the first part may go on into the tail, and the second part goes on from there
      subst hnil
      rcases h₁.reach tail hq with ⟨a', middle, hfirst, hmiddle, hvalue₁, hstop₁⟩
      rcases h₂.reach middle hr with ⟨b', rest, hsecond, hrest, hvalue₂, hstop₂⟩
      simp only [List.nil_append] at hsecond ⊢
      refine ⟨(a', b'), rest, andThen_eq_some_iff.2 ⟨middle, hfirst, hsecond⟩,
        hrest.trans hmiddle, ?_, ?_⟩
      · rintro rfl
        have heq : middle = rest := hmiddle.eq_of_length_le hrest.length_le
        rw [hvalue₁ heq, hvalue₂ heq.symm]
      · intro ht
        have hm : middle = tail := hstop₁ (hs₁ b tail hr ht)
        subst hm
        exact hstop₂ (hs₂ _ ht)
    · -- the second part starts behind the first, which it stops
      have hfirst := h₁.exact hq (hnext r b tail hr hnil)
      rcases h₂.reach tail hr with ⟨b', rest, hsecond, hrest, hvalue, hstop⟩
      refine ⟨(a, b'), rest, andThen_eq_some_iff.2 ⟨_, hfirst, hsecond⟩, hrest, ?_,
        fun ht => hstop (hs₂ tail ht)⟩
      intro heq
      rw [hvalue heq]

/-! ## Repetition -/

/-- As many values as there are, maybe none. -/
def repeated (read : Reader α) (h : Consumes read) : Reader (List α) := fun cs =>
  some (many read h cs)

/-- Any number of sentences one behind the other. -/
inductive Sentences.Repeated (L : Sentences α) : List Char → List α → Prop where
  | nil : Repeated L [] []
  | cons {p q : List Char} {a : α} {as : List α} :
      L p a → Repeated L q as → Repeated L (p ++ q) (a :: as)

/-- A repetition that takes nothing has no values. -/
theorem many_eq_nil_of_rest {read : Reader α} {h : Consumes read} {cs : List Char}
    (hrest : (many read h cs).2 = cs) : (many read h cs).1 = [] := by
  cases e : read cs with
  | none => rw [many_of_none e]
  | some answer =>
    rcases answer with ⟨a, rest⟩
    rw [many_of_some e] at hrest
    have hs := (many_suffix read h rest).length_le
    have hc := (h _ _ _ e).2
    rw [hrest] at hs
    omega

/-- Whatever a repetition takes is a repetition of sentences. -/
theorem many_sound {read : Reader α} {h : Consumes read} {L : Sentences α}
    {stop : List Char → Prop} (hL : ReadsLongest read L stop) (cs : List Char) :
    ∃ p, cs = p ++ (many read h cs).2 ∧ L.Repeated p (many read h cs).1 := by
  induction hn : cs.length using Nat.strongRecOn generalizing cs with
  | ind n ih =>
    subst hn
    cases e : read cs with
    | none =>
      rw [many_of_none e]
      exact ⟨[], rfl, .nil⟩
    | some answer =>
      rcases answer with ⟨a, rest⟩
      rcases hL.sound e with ⟨p, hp, ha⟩
      rcases ih _ (h _ _ _ e).2 rest rfl with ⟨q, hq, hrest⟩
      rw [many_of_some e]
      refine ⟨p ++ q, ?_, .cons ha hrest⟩
      rw [hp, List.append_assoc, ← hq]

/-- A repetition reads the longest sequence of sentences if each sentence stops the reader
of the one before it. It stops in front of what stops that reader and is no sentence. -/
theorem ReadsLongest.repeated {read : Reader α} {L : Sentences α} {stop : List Char → Prop}
    (h : ReadsLongest read L stop) (hc : Consumes read)
    (hnext : ∀ p a t, L p a → stop (p ++ t)) :
    ReadsLongest (repeated read hc) L.Repeated (fun t => stop t ∧ read t = none) := by
  refine ⟨?_, ?_⟩
  · intro cs rest as hread
    rcases many_sound (h := hc) h cs with ⟨p, hp, has⟩
    simp only [Reader.repeated, Option.some.injEq] at hread
    rw [hread] at hp has
    exact ⟨p, hp, has⟩
  · intro p as tail hp
    induction hp with
    | nil =>
      -- there may be sentences in the tail
      refine ⟨(many read hc tail).1, (many read hc tail).2, rfl, many_suffix read hc _,
        many_eq_nil_of_rest, ?_⟩
      rintro ⟨-, hnone⟩
      rw [many_of_none hnone]
    | @cons p q a as ha hq ih =>
      rw [List.append_assoc]
      cases hq with
      | nil =>
        -- the last sentence may go on into the tail, and more may follow it there
        rcases h.reach tail ha with ⟨b, middle, hread, hmiddle, hvalue, hstop⟩
        simp only [List.nil_append]
        have hrest := many_suffix read hc middle
        refine ⟨_, _, congrArg some (many_of_some hread), hrest.trans hmiddle, ?_, ?_⟩
        · intro heq
          have hm : middle = tail := by
            rw [heq] at hrest
            exact hmiddle.eq_of_length_le hrest.length_le
          subst hm
          rw [hvalue rfl, many_eq_nil_of_rest heq]
        · rintro ⟨ht, hnone⟩
          have hm := hstop ht
          subst hm
          rw [many_of_none hnone]
      | @cons p' q' a' as' ha' hq' =>
        -- the next sentence stops the reader of this one
        have hread : read (p ++ ((p' ++ q') ++ tail)) = some (a, (p' ++ q') ++ tail) := by
          apply h.exact ha
          rw [List.append_assoc]
          exact hnext p' a' (q' ++ tail) ha'
        rcases ih with ⟨bs, rest, hmany, hrest, hvalue, hstop⟩
        simp only [Reader.repeated, Option.some.injEq] at hmany
        refine ⟨a :: bs, rest, ?_, hrest, ?_, hstop⟩
        · simp only [Reader.repeated, many_of_some hread, hmany]
        · intro heq
          rw [hvalue heq]

/-- A repetition goes on behind sentences with what stands there, if that stops the reader of
the last of them. -/
theorem ReadsLongest.many_append {read : Reader α} {L : Sentences α}
    {stop : List Char → Prop} (h : ReadsLongest read L stop) (hc : Consumes read)
    (hnext : ∀ p a t, L p a → stop (p ++ t)) {p tail : List Char} {as : List α}
    (hp : L.Repeated p as) (htail : stop tail) :
    many read hc (p ++ tail) = (as ++ (many read hc tail).1, (many read hc tail).2) := by
  induction hp with
  | nil => rfl
  | @cons p q a as ha hq ih =>
    have hstop : stop (q ++ tail) := by
      cases hq with
      | nil => exact htail
      | cons ha' _ =>
        rw [List.append_assoc]
        exact hnext _ _ _ ha'
    rw [List.append_assoc, many_of_some (h.exact ha hstop), ih]
    rfl

end MarkupQuery.Reader

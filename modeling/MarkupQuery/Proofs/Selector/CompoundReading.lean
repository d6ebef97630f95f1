import MarkupQuery.Proofs.Selector.SimpleReading
import MarkupQuery.Selector.Groups

/-!
# MarkupQuery.Proofs.Selector.CompoundReading — compounds and combinators are read longest

A compound is a sequence of its front and a repetition of simple selectors, and reads the
longest sentence since no part of it can be mistaken for more of the part before it. Which
of the parts a text can go on is decided by its first character: `EndsCompound` says that
it can go on none. A combinator is one sign with blanks around it, or blanks alone; behind
blanks a sign is always taken as well.
-/

namespace MarkupQuery.Selector.Grammar

open Reader

/-! ## Compounds -/

/-- Nothing that could go on a compound stands at the front. -/
def EndsCompound (t : List Char) : Prop :=
  ∀ c ∈ t.head?, ¬ NameRest c ∧ c ∉ ['*', '(', '.', '#', '[', ':']

theorem EndsCompound.endsName {t : List Char} (h : EndsCompound t) : EndsName t :=
  fun c hc => (h c hc).1

theorem EndsCompound.endsSimple {t : List Char} (h : EndsCompound t) :
    EndsSimple t ∧ simple t = none := by
  constructor
  · intro c hc
    refine ⟨(h c hc).1, ?_⟩
    rintro rfl
    exact absurd (h _ hc).2 (by decide)
  · apply simple_eq_none
    intro c hc
    have hnot := (h c hc).2
    simp only [List.mem_cons, not_or] at hnot
    exact ⟨hnot.2.2.1, hnot.2.2.2.1, hnot.2.2.2.2.1, hnot.2.2.2.2.2.1⟩

/-- The type at the front of a compound, or nothing. -/
def front : Reader Group := fun cs =>
  match typeSelector cs with
  | some (t, rest) => some ([t], rest)
  | none => some ([], cs)

/-- No type stands in front of what is no name and no `*`. -/
theorem typeSelector_eq_none {t : List Char} (hname : EndsName t)
    (hstar : ∀ c ∈ t.head?, c ≠ '*') : typeSelector t = none := by
  unfold typeSelector
  split
  · exact absurd rfl (hstar '*' rfl)
  · simp only [mapValue, identifier_eq_none hname]

/-- In front of a name stands its type. -/
theorem typeSelector_identifier {p : List Char} {name : String} (hp : Identifier p name)
    (tail : List Char) : typeSelector (p ++ tail) = mapValue .tag identifier (p ++ tail) := by
  rcases hp.head with ⟨c, q, rfl, hc⟩
  unfold typeSelector
  split
  · rename_i heq
    simp only [List.cons_append, List.cons.injEq] at heq
    rcases heq with ⟨rfl, -⟩
    exact absurd hc (by decide)
  · rfl

/-- The front of a compound is read longest. -/
theorem front_readsLongest :
    ReadsLongest front Front (fun t => EndsName t ∧ ∀ c ∈ t.head?, c ≠ '*') := by
  refine ⟨?_, ?_⟩
  · intro cs rest tokens h
    unfold front at h
    split at h
    · rename_i t rest' ht
      simp only [Option.some.injEq, Prod.mk.injEq] at h
      rcases h with ⟨rfl, rfl⟩
      unfold typeSelector at ht
      split at ht
      · simp only [Option.some.injEq, Prod.mk.injEq] at ht
        rcases ht with ⟨rfl, rfl⟩
        exact ⟨['*'], rfl, .universal⟩
      · rcases mapValue_eq_some_iff.1 ht with ⟨name, hname, rfl⟩
        rcases identifier_readsLongest.sound hname with ⟨p, rfl, hp⟩
        exact ⟨p, rfl, .tag hp⟩
    · simp only [Option.some.injEq, Prod.mk.injEq] at h
      rcases h with ⟨rfl, rfl⟩
      exact ⟨[], rfl, .nothing⟩
  · intro p tokens tail hp
    cases hp with
    | nothing =>
      -- the reader may find a type in the tail
      cases ht : typeSelector tail with
      | none =>
        refine ⟨[], tail, ?_, List.suffix_refl _, fun _ => rfl, fun _ => rfl⟩
        simp only [front, List.nil_append, ht]
      | some answer =>
        rcases answer with ⟨t, rest⟩
        have hc := typeSelector_consumes _ _ _ ht
        refine ⟨[t], rest, ?_, hc.1, ?_, ?_⟩
        · simp only [front, List.nil_append, ht]
        · rintro rfl
          exact absurd hc.2 (Nat.lt_irrefl _)
        · rintro ⟨hname, hstar⟩
          rw [typeSelector_eq_none hname hstar] at ht
          simp at ht
    | tag hid =>
      rcases (identifier_readsLongest.mapValue Token.tag).reach tail ⟨_, hid, rfl⟩ with
        ⟨t, rest, hread, hrest, hvalue, hstop⟩
      refine ⟨[t], rest, ?_, hrest, ?_, fun h => hstop h.1⟩
      · simp only [front, typeSelector_identifier hid, hread]
      · intro heq
        rw [hvalue heq]
    | universal =>
      -- a star cannot go on
      exact ⟨_, tail, rfl, List.suffix_refl _, fun _ => rfl, fun _ => rfl⟩

/-- The parts of a compound, of which there may be none. -/
def parts : Reader Group :=
  mapValue (fun x => x.1 ++ x.2) (andThen front (repeated simple simple_consumes))

/-- A compound takes its parts, provided that there is one. -/
theorem compound_eq_some_iff {cs rest : List Char} {tokens : Group} :
    compound cs = some (tokens, rest) ↔ parts cs = some (tokens, rest) ∧ tokens ≠ [] := by
  obtain ⟨first, middle, hfront, hcompound⟩ : ∃ first middle, front cs = some (first, middle) ∧
      compound cs =
        if first ++ (many simple simple_consumes middle).1 = [] then none
        else some (first ++ (many simple simple_consumes middle).1,
          (many simple simple_consumes middle).2) := by
    cases htype : typeSelector cs with
    | none => exact ⟨[], cs, by simp only [front, htype], by simp only [compound, htype]⟩
    | some answer =>
      exact ⟨[answer.1], answer.2, by simp only [front, htype], by simp only [compound, htype]⟩
  have hparts : parts cs = some (first ++ (many simple simple_consumes middle).1,
      (many simple simple_consumes middle).2) := by
    simp only [parts, mapValue, andThen, hfront, repeated]
  rw [hcompound, hparts]
  split
  · rename_i hnil
    simp only [reduceCtorEq, false_iff, Option.some.injEq, Prod.mk.injEq, hnil]
    rintro ⟨⟨rfl, -⟩, hne⟩
    exact hne rfl
  · rename_i hne
    constructor
    · intro h
      refine ⟨h, ?_⟩
      obtain ⟨rfl, -⟩ := Prod.mk.inj (Option.some.inj h)
      exact hne
    · exact fun h => h.1

/-- Some sentences of parts are empty, and they have no tokens. -/
theorem parts_eq_nil_iff {p q : List Char} {front parts : Group} (hp : Front p front)
    (hq : Sentences.Repeated Simple q parts) : front ++ parts = [] ↔ p ++ q = [] := by
  have hfront : front = [] ↔ p = [] := by
    cases hp with
    | nothing => simp
    | universal => simp
    | tag hid =>
      obtain ⟨c, r, rfl, -⟩ := hid.head
      simp
  have hparts : parts = [] ↔ q = [] := by
    cases hq with
    | nil => simp
    | cons ht _ =>
      obtain ⟨c, r, rfl, -⟩ := ht.head
      simp
  simp only [List.append_eq_nil_iff, hfront, hparts]

/-- The parts of a compound are read longest. -/
theorem parts_readsLongest :
    ReadsLongest parts (fun p tokens => ∃ x, Sentences.Then Front (Sentences.Repeated Simple) p x ∧
      x.1 ++ x.2 = tokens) EndsCompound := by
  apply ReadsLongest.mapValue
  refine front_readsLongest.andThen
    (simple_readsLongest.repeated simple_consumes ?_) ?_ ?_ (fun t => EndsCompound.endsSimple)
  · -- a simple selector ends the one before it
    intro p t tail hp c hc
    obtain ⟨d, q, rfl, hd⟩ := hp.head
    obtain rfl : d = c := by simpa using hc
    rcases hd with rfl | rfl | rfl | rfl <;> decide
  · -- a simple selector ends the type before it
    intro r ts t hr hne
    cases hr with
    | nil => exact absurd rfl hne
    | cons ht _ =>
      obtain ⟨d, q, rfl, hd⟩ := ht.head
      constructor
      · rcases hd with rfl | rfl | rfl | rfl <;> exact endsName_cons (by decide)
      · rcases hd with rfl | rfl | rfl | rfl <;> simp
  · -- without simple selectors the type is ended by what ends the compound
    intro ts t _ ht
    refine ⟨ht.endsName, ?_⟩
    intro c hc
    have hnot := (ht c hc).2
    simp only [List.mem_cons, not_or] at hnot
    exact hnot.1

/-- Compounds are read longest. -/
theorem compound_readsLongest : ReadsLongest compound Compound EndsCompound := by
  refine ⟨?_, ?_⟩
  · intro cs rest tokens h
    obtain ⟨hread, hne⟩ := compound_eq_some_iff.1 h
    obtain ⟨p, rfl, ⟨front, parts⟩, ⟨q, r, rfl, hq, hr⟩, rfl⟩ := parts_readsLongest.sound hread
    exact ⟨_, rfl, .intro hq hr hne⟩
  · intro p tokens tail hp
    cases hp with
    | @intro q r front simples hq hr hne =>
      obtain ⟨b, rest, hread, hrest, hvalue, hstop⟩ :=
        parts_readsLongest.reach tail ⟨(front, simples), ⟨q, r, rfl, hq, hr⟩, rfl⟩
      refine ⟨b, rest, compound_eq_some_iff.2 ⟨hread, ?_⟩, hrest, hvalue, hstop⟩
      -- what is read is at least as long as a compound, so it is not empty
      obtain ⟨p', hsplit, ⟨front', simples'⟩, ⟨q', r', rfl, hq', hr'⟩, rfl⟩ :=
        parts_readsLongest.sound hread
      intro hnil
      have hempty := (parts_eq_nil_iff hq' hr').1 hnil
      have hlen := congrArg List.length hsplit
      have hle := hrest.length_le
      have hpos : 0 < (q ++ r).length :=
        List.length_pos_iff.2 fun h => hne ((parts_eq_nil_iff hq hr).2 h)
      rw [hempty] at hlen
      simp only [List.length_append, List.length_nil] at hlen hpos
      omega

/-! ## Combinators -/

/-- Nothing that could go on a combinator stands at the front. -/
def EndsLink (t : List Char) : Prop :=
  ∀ c ∈ t.head?, isBlank c = false ∧ ∀ which, ¬ Sign c which

/-- Nothing is skipped in front of what is no blank. -/
theorem skipBlanks_eq_self {t : List Char} (ht : ∀ c ∈ t.head?, isBlank c = false) :
    skipBlanks t = t := by
  cases t with
  | nil => rfl
  | cons c t => exact skipBlanks_cons (ht c rfl) t

/-- No blank stands behind the blanks that are skipped. -/
theorem not_blank_of_skipBlanks {cs t : List Char} {c : Char} (h : skipBlanks cs = c :: t) :
    isBlank c = false := by
  have hhead := List.head?_dropWhile_not isBlank cs
  rw [show cs.dropWhile isBlank = c :: t from h] at hhead
  simpa using hhead

/-- A sign is no blank. -/
theorem Sign.not_blank {c : Char} {which : Combinator} (h : Sign c which) :
    isBlank c = false := by
  cases h <;> decide

/-- Behind any blanks a sign stands for its combinator. -/
theorem combinator_sign {v : List Char} {c : Char} {which : Combinator} (hv : Blanks v)
    (hc : Sign c which) (t : List Char) :
    combinator (v ++ c :: t) = some (which, skipBlanks t) := by
  have hskip : skipBlanks (v ++ c :: t) = c :: t := by
    rw [skipBlanks_append hv, skipBlanks_cons hc.not_blank]
  unfold combinator
  rw [hskip]
  cases hc <;> rfl

/-- Where behind the blanks no sign stands they are a combinator themselves. -/
theorem combinator_blanks {cs : List Char} (hne : cs.head?.any isBlank = true)
    (hsign : ∀ c ∈ (skipBlanks cs).head?, ∀ which, ¬ Sign c which) :
    combinator cs = some (.descendant, skipBlanks cs) := by
  unfold combinator
  split
  case h_4 => rw [if_pos hne]
  all_goals
    rename_i heq
    rw [heq] at hsign
    exact absurd (by constructor) (hsign _ rfl _)

/-- A combinator is a sign behind blanks, or blanks. -/
theorem combinator_eq_some {cs rest : List Char} {which : Combinator}
    (h : combinator cs = some (which, rest)) :
    (∃ v c t, cs = v ++ c :: t ∧ Blanks v ∧ Sign c which ∧ rest = skipBlanks t) ∨
      (which = .descendant ∧ cs.head?.any isBlank = true ∧ rest = skipBlanks cs) := by
  obtain ⟨v, hcs, hv⟩ := exists_blanks cs
  unfold combinator at h
  split at h
  case h_4 =>
    split at h
    · rename_i hne
      simp only [Option.some.injEq, Prod.mk.injEq] at h
      exact .inr ⟨h.1.symm, hne, h.2.symm⟩
    · simp at h
  all_goals
    rename_i t heq
    simp only [Option.some.injEq, Prod.mk.injEq] at h
    obtain ⟨rfl, rfl⟩ := h
    rw [heq] at hcs
    exact .inl ⟨v, _, t, hcs, hv, by constructor, rfl⟩

/-- Blanks are read as a combinator, unless a sign behind more blanks goes on it. -/
theorem combinator_append {w : List Char} (hw : Blanks w) (hne : w ≠ []) (tail : List Char) :
    combinator (w ++ tail) = some (.descendant, skipBlanks tail) ∨
      ∃ v c t which, tail = v ++ c :: t ∧ Blanks v ∧ Sign c which ∧
        combinator (w ++ tail) = some (which, skipBlanks t) := by
  by_cases hsign : ∃ c which, (skipBlanks tail).head? = some c ∧ Sign c which
  · right
    obtain ⟨c, which, hhead, hc⟩ := hsign
    obtain ⟨t, ht⟩ := List.head?_eq_some_iff.1 hhead
    obtain ⟨v, htail, hv⟩ := exists_blanks tail
    rw [ht] at htail
    refine ⟨v, c, t, which, htail, hv, hc, ?_⟩
    have hblanks : Blanks (w ++ v) := by
      intro d hd
      rcases List.mem_append.1 hd with hd | hd
      · exact hw d hd
      · exact hv d hd
    rw [htail, ← List.append_assoc]
    exact combinator_sign hblanks hc t
  · left
    rw [← skipBlanks_append hw]
    apply combinator_blanks
    · cases w with
      | nil => exact absurd rfl hne
      | cons c w => simpa using isBlank_iff.2 (hw c List.mem_cons_self)
    · intro c hc which hwhich
      rw [skipBlanks_append hw] at hc
      exact hsign ⟨c, which, hc, hwhich⟩

/-- Combinators are read longest. -/
theorem combinator_readsLongest : ReadsLongest combinator Link EndsLink := by
  refine ⟨?_, ?_⟩
  · intro cs rest which h
    rcases combinator_eq_some h with ⟨v, c, t, rfl, hv, hc, rfl⟩ | ⟨rfl, hne, rfl⟩
    · obtain ⟨w, ht, hw⟩ := exists_blanks t
      refine ⟨v ++ c :: w, ?_, .explicit hv hc hw⟩
      rw [List.append_assoc, List.cons_append, ← ht]
    · obtain ⟨w, hcs, hw⟩ := exists_blanks cs
      refine ⟨w, hcs, .descendant hw ?_⟩
      rintro rfl
      -- without blanks nothing would be skipped, but the text starts with one
      cases cs with
      | nil => simp at hne
      | cons c cs =>
        have hnot := not_blank_of_skipBlanks hcs.symm
        simp [hnot] at hne
  · intro p which tail hp
    cases hp with
    | @explicit v w c _ hv hc hw =>
      have hread : combinator ((v ++ c :: w) ++ tail) = some (which, skipBlanks tail) := by
        rw [List.append_assoc, List.cons_append, combinator_sign hv hc, skipBlanks_append hw]
      exact ⟨which, _, hread, skipBlanks_suffix tail, fun _ => rfl,
        fun h => skipBlanks_eq_self fun c hc => (h c hc).1⟩
    | descendant hw hne =>
      rcases combinator_append hw hne tail with hread | ⟨v, c, t, which, rfl, hv, hc, hread⟩
      · exact ⟨_, _, hread, skipBlanks_suffix tail, fun _ => rfl,
          fun h => skipBlanks_eq_self fun c hc => (h c hc).1⟩
      · -- the sign is taken as well, so more than the blanks alone
        have hlt : (skipBlanks t).length < (v ++ c :: t).length := by
          have hle := length_skipBlanks_le t
          simp only [List.length_append, List.length_cons]
          omega
        refine ⟨_, _, hread, ?_, ?_, ?_⟩
        · exact (skipBlanks_suffix t).trans ((List.suffix_cons c t).trans (List.suffix_append v _))
        · intro heq
          rw [heq] at hlt
          exact absurd hlt (Nat.lt_irrefl _)
        · -- the tail starts with a blank or with the sign, so it ends no combinator
          intro hends
          exfalso
          cases v with
          | nil => exact (hends c rfl).2 which hc
          | cons d v =>
            have hd := isBlank_iff.2 (hv d List.mem_cons_self)
            rw [(hends d rfl).1] at hd
            simp at hd

end MarkupQuery.Selector.Grammar

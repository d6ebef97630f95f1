import MarkupQuery.Proofs.Selector.CompoundReading

/-!
# MarkupQuery.Proofs.Selector.ListReading — selector lists are read longest

Groups and lists are sequences and repetitions of compounds, combinators and commas. Blanks
before a comma are read as a combinator first, and given back since no compound follows
them (`endsGroup_comma`). Blanks at the end of a list belong to the list; they are no part
of its last group, since no group ends in a blank (`EndsSolid`).

The main result is `read_longest`: at the front of every text the longest selector list is
read, and nothing is read only where no front of the text is one.
-/

namespace MarkupQuery.Selector.Grammar

open Reader

/-! ## Groups -/

/-- A compound starts with none of the characters that could go on a combinator. -/
theorem Compound.head {p : List Char} {tokens : Group} (h : Compound p tokens) :
    ∃ c q, p = c :: q ∧ (NameRest c ∨ c ∈ ['*', '.', '#', '[', ':']) := by
  cases h with
  | @intro q r front parts hq hr hne =>
    cases hq with
    | tag hid =>
      obtain ⟨c, q, rfl, hc⟩ := hid.head
      exact ⟨c, q ++ r, rfl, .inl hc⟩
    | universal => exact ⟨_, _, rfl, .inr (by decide)⟩
    | nothing =>
      cases hr with
      | nil => exact absurd rfl hne
      | cons ht _ =>
        obtain ⟨c, q, rfl, hc⟩ := ht.head
        refine ⟨c, _, rfl, .inr ?_⟩
        rcases hc with rfl | rfl | rfl | rfl <;> decide

/-- A complex selector starts as its first compound does. -/
theorem Complex.head {p : List Char} {tokens : Group} (h : Complex p tokens) :
    ∃ c q, p = c :: q ∧ (NameRest c ∨ c ∈ ['*', '.', '#', '[', ':']) := by
  cases h with
  | intro hq _ =>
    obtain ⟨c, q, rfl, hc⟩ := hq.head
    exact ⟨c, _, rfl, hc⟩

/-- What starts as a compound does ends the combinator before it. -/
theorem endsLink_cons {c : Char} (hc : NameRest c ∨ c ∈ ['*', '.', '#', '[', ':'])
    (t : List Char) : EndsLink (c :: t) := by
  intro d hd
  obtain rfl : c = d := by simpa using hd
  constructor
  · rw [Bool.eq_false_iff]
    intro hblank
    rcases isBlank_iff.1 hblank with rfl | rfl | rfl | rfl <;> exact absurd hc (by decide)
  · intro which hsign
    cases hsign <;> exact absurd hc (by decide)

/-- A compound ends the combinator before it. -/
theorem Compound.endsLink {p : List Char} {tokens : Group} (h : Compound p tokens)
    (tail : List Char) : EndsLink (p ++ tail) := by
  obtain ⟨c, q, rfl, hc⟩ := h.head
  exact endsLink_cons hc _

/-- A blank ends a compound. -/
theorem endsCompound_blank {c : Char} (hc : isBlank c = true) (t : List Char) :
    EndsCompound (c :: t) := by
  intro d hd
  obtain rfl : c = d := by simpa using hd
  refine ⟨not_nameRest_of_blank hc, ?_⟩
  rcases isBlank_iff.1 hc with rfl | rfl | rfl | rfl <;> decide

theorem Complex.endsLink {p : List Char} {tokens : Group} (h : Complex p tokens)
    (tail : List Char) : EndsLink (p ++ tail) := by
  cases h with
  | intro hq _ =>
    rw [List.append_assoc]
    exact hq.endsLink _

/-- A combinator ends the compound before it. -/
theorem Link.endsCompound {p : List Char} {which : Combinator} (h : Link p which)
    (tail : List Char) : EndsCompound (p ++ tail) := by
  cases h with
  | @explicit v w c _ hv hc hw =>
    cases v with
    | cons d v => exact endsCompound_blank (isBlank_iff.2 (hv d List.mem_cons_self)) _
    | nil =>
      intro d hd
      obtain rfl : c = d := by simpa using hd
      cases hc <;> exact ⟨by decide, by decide⟩
  | descendant hw hne =>
    cases p with
    | nil => exact absurd rfl hne
    | cons d p => exact endsCompound_blank (isBlank_iff.2 (hw d List.mem_cons_self)) _

/-- A compound behind a combinator is a sequence of the two. -/
theorem linkedCompound_eq :
    linkedCompound = mapValue (fun x => .combinator x.1 :: x.2) (andThen combinator compound) := by
  funext cs
  unfold linkedCompound mapValue andThen
  cases combinator cs with
  | none => rfl
  | some answer =>
    obtain ⟨which, middle⟩ := answer
    simp only [mapValue]
    cases compound middle <;> rfl

/-- Compounds behind a combinator are read longest. -/
theorem linkedCompound_readsLongest : ReadsLongest linkedCompound Linked EndsCompound := by
  have h : ReadsLongest (andThen combinator compound) (Sentences.Then Link Compound)
      EndsCompound := by
    refine combinator_readsLongest.andThen compound_readsLongest ?_ ?_ (fun _ => id)
    · intro r tokens t hr _
      exact hr.endsLink t
    · -- no compound is empty
      intro tokens t hnil _
      obtain ⟨c, q, heq, -⟩ := hnil.head
      simp at heq
  rw [linkedCompound_eq]
  refine (h.mapValue _).congr ?_ (fun _ => id)
  intro p tokens
  constructor
  · intro hp
    cases hp with
    | intro hq hr => exact ⟨(_, _), ⟨_, _, rfl, hq, hr⟩, rfl⟩
  · rintro ⟨⟨which, tokens⟩, ⟨q, r, rfl, hq, hr⟩, rfl⟩
    exact .intro hq hr

/-- Nothing that could go on a group stands at the front. -/
def EndsGroup (t : List Char) : Prop :=
  EndsCompound t ∧ linkedCompound t = none

/-- A group is a compound and a repetition of compounds behind combinators. -/
theorem group_eq :
    group = mapValue (fun x => x.1 ++ x.2.flatten)
      (andThen compound (repeated linkedCompound linkedCompound_consumes)) := by
  funext cs
  unfold group mapValue andThen
  cases compound cs <;> rfl

/-- Groups are read longest. -/
theorem group_readsLongest : ReadsLongest group Complex EndsGroup := by
  have hends : ∀ p tokens t, Linked p tokens → EndsCompound (p ++ t) := by
    intro p tokens t hp
    cases hp with
    | @intro q r which tokens hq hr =>
      rw [List.append_assoc]
      exact hq.endsCompound (r ++ t)
  have h : ReadsLongest (andThen compound (repeated linkedCompound linkedCompound_consumes))
      (Sentences.Then Compound (Sentences.Repeated Linked)) EndsGroup := by
    refine compound_readsLongest.andThen
      (linkedCompound_readsLongest.repeated linkedCompound_consumes hends) ?_ ?_ (fun _ => id)
    · intro r linked t hr hne
      cases hr with
      | nil => exact absurd rfl hne
      | cons hp _ =>
        rw [List.append_assoc]
        exact hends _ _ _ hp
    · intro linked t _ ht
      exact ht.1
  rw [group_eq]
  refine (h.mapValue _).congr ?_ (fun _ => id)
  intro p tokens
  constructor
  · intro hp
    cases hp with
    | intro hq hr => exact ⟨(_, _), ⟨_, _, rfl, hq, hr⟩, rfl⟩
  · rintro ⟨⟨first, linked⟩, ⟨q, r, rfl, hq, hr⟩, rfl⟩
    exact .intro hq hr

/-! ## Further groups -/

/-- A comma with the blanks around it. -/
def comma : Reader Unit := fun cs =>
  match skipBlanks cs with
  | ',' :: rest => some ((), skipBlanks rest)
  | _ => none

/-- Blanks, a comma and blanks. -/
def Comma : Sentences Unit := fun p _ =>
  ∃ v w, p = v ++ ',' :: w ∧ Blanks v ∧ Blanks w

/-- Commas are read longest. -/
theorem comma_readsLongest :
    ReadsLongest comma Comma (fun t => ∀ c ∈ t.head?, isBlank c = false) := by
  refine ⟨?_, ?_⟩
  · intro cs rest a h
    unfold comma at h
    split at h
    · rename_i t heq
      simp only [Option.some.injEq, Prod.mk.injEq, true_and] at h
      subst h
      obtain ⟨v, hcs, hv⟩ := exists_blanks cs
      obtain ⟨w, ht, hw⟩ := exists_blanks t
      refine ⟨v ++ ',' :: w, ?_, v, w, rfl, hv, hw⟩
      rw [List.append_assoc, List.cons_append, ← ht, ← heq, ← hcs]
    · simp at h
  · rintro p a tail ⟨v, w, rfl, hv, hw⟩
    have hread : comma ((v ++ ',' :: w) ++ tail) = some ((), skipBlanks tail) := by
      have hskip : skipBlanks ((v ++ ',' :: w) ++ tail) = ',' :: (w ++ tail) := by
        rw [List.append_assoc, skipBlanks_append hv, List.cons_append,
          skipBlanks_cons (by decide)]
      unfold comma
      rw [hskip]
      simp only [skipBlanks_append hw]
    exact ⟨(), _, hread, skipBlanks_suffix tail, fun _ => rfl, skipBlanks_eq_self⟩

/-- A comma starts no compound. -/
theorem compound_comma (t : List Char) : compound (',' :: t) = none := by
  rw [compound_readsLongest.eq_none_iff]
  rintro p tokens ⟨tail, hsplit⟩ hp
  obtain ⟨c, q, rfl, hc⟩ := hp.head
  rw [List.cons_append, List.cons.injEq] at hsplit
  obtain ⟨rfl, -⟩ := hsplit
  exact absurd hc (by decide)

/-- Blanks and a comma end the group before them: the blanks are a combinator that no
compound follows. -/
theorem endsGroup_comma {v : List Char} (hv : Blanks v) (t : List Char) :
    EndsGroup (v ++ ',' :: t) := by
  have hskip : skipBlanks (v ++ ',' :: t) = ',' :: t := by
    rw [skipBlanks_append hv, skipBlanks_cons (by decide)]
  constructor
  · cases v with
    | cons d v => exact endsCompound_blank (isBlank_iff.2 (hv d List.mem_cons_self)) _
    | nil =>
      intro d hd
      obtain rfl : ',' = d := by simpa using hd
      exact ⟨by decide, by decide⟩
  · unfold linkedCompound
    cases h : combinator (v ++ ',' :: t) with
    | none => rfl
    | some answer =>
      obtain ⟨which, rest⟩ := answer
      rcases combinator_eq_some h with ⟨u, c, t', hsplit, hu, hc, rfl⟩ | ⟨rfl, -, rfl⟩
      · -- behind the blanks stands a comma, which is no sign
        rw [hsplit, skipBlanks_append hu, skipBlanks_cons hc.not_blank] at hskip
        obtain ⟨rfl, -⟩ := List.cons.inj hskip
        cases hc
      · -- the blanks are taken, but no compound stands behind them
        simp only [hskip, mapValue, compound_comma]

/-- A group behind a comma is a sequence of the two. -/
theorem nextGroup_eq : nextGroup = mapValue Prod.snd (andThen comma group) := by
  funext cs
  unfold nextGroup mapValue andThen comma
  generalize skipBlanks cs = t
  split
  · rename_i rest
    simp only [mapValue]
    cases group (skipBlanks rest) <;> rfl
  · simp_all

/-- Groups behind a comma are read longest. -/
theorem nextGroup_readsLongest : ReadsLongest nextGroup Next EndsGroup := by
  have h : ReadsLongest (andThen comma group) (Sentences.Then Comma Complex) EndsGroup := by
    refine comma_readsLongest.andThen group_readsLongest ?_ ?_ (fun _ => id)
    · -- a group starts with no blank
      intro r tokens t hr _ c hc
      exact (hr.endsLink t c hc).1
    · intro tokens t hnil _
      obtain ⟨c, q, heq, -⟩ := hnil.head
      simp at heq
  rw [nextGroup_eq]
  refine (h.mapValue _).congr ?_ (fun _ => id)
  intro p tokens
  constructor
  · intro hp
    cases hp with
    | @intro v w q _ hv hw hq =>
      exact ⟨((), tokens), ⟨v ++ ',' :: w, q, by simp, ⟨v, w, rfl, hv, hw⟩, hq⟩, rfl⟩
  · rintro ⟨⟨_, tokens⟩, ⟨_, q, rfl, ⟨v, w, rfl, hv, hw⟩, hq⟩, rfl⟩
    rw [List.append_assoc, List.cons_append]
    exact .intro hv hw hq

/-! ## No group ends in a blank -/

/-- The last character, if there is one, is no blank. -/
def EndsSolid (p : List Char) : Prop :=
  ∀ c ∈ p.getLast?, isBlank c = false

theorem endsSolid_append_of_ne_nil {p q : List Char} (hq : EndsSolid q) (hne : q ≠ []) :
    EndsSolid (p ++ q) := by
  intro c hc
  rw [List.getLast?_append, List.getLast?_eq_some_getLast hne, Option.some_or] at hc
  apply hq c
  rw [List.getLast?_eq_some_getLast hne]
  exact hc

theorem endsSolid_append {p q : List Char} (hp : EndsSolid p) (hq : EndsSolid q) :
    EndsSolid (p ++ q) := by
  by_cases hne : q = []
  · subst hne
    rwa [List.append_nil]
  · exact endsSolid_append_of_ne_nil hq hne

theorem Identifier.endsSolid {p : List Char} {s : String} (h : Identifier p s) :
    EndsSolid p := by
  intro c hc
  rw [Bool.eq_false_iff]
  intro hblank
  exact not_nameRest_of_blank hblank (h.nameRest c (List.mem_of_getLast? hc))

theorem Simple.endsSolid {p : List Char} {t : Token} (h : Simple p t) : EndsSolid p := by
  have hname : ∀ {u q : List Char} {s : String}, Identifier q s → EndsSolid (u ++ q) := by
    intro u q s hq
    obtain ⟨c, r, rfl, -⟩ := hq.head
    exact endsSolid_append_of_ne_nil hq.endsSolid (by simp)
  cases h with
  | ofClass hid => exact hname (u := ['.']) hid
  | ofId hid => exact hname (u := ['#']) hid
  | pseudoElement hid => exact hname (u := [':', ':']) hid
  | pseudoClass hid => exact hname (u := [':']) hid
  | pseudoClassOf hid hfree => simp [EndsSolid, List.getLast?_cons, isBlank]
  | bracketed hu hid hv hc hw => simp [EndsSolid, List.getLast?_cons, isBlank]

/-- A repetition ends as its sentences do. -/
theorem endsSolid_repeated {α : Type} {L : Sentences α} (hL : ∀ p a, L p a → EndsSolid p)
    {p : List Char} {as : List α} (h : Sentences.Repeated L p as) : EndsSolid p := by
  induction h with
  | nil => simp [EndsSolid]
  | cons ha _ ih => exact endsSolid_append (hL _ _ ha) ih

theorem Compound.endsSolid {p : List Char} {tokens : Group} (h : Compound p tokens) :
    EndsSolid p := by
  cases h with
  | intro hq hr _ =>
    apply endsSolid_append
    · cases hq with
      | nothing => simp [EndsSolid]
      | tag hid => exact hid.endsSolid
      | universal => simp [EndsSolid, isBlank]
    · exact endsSolid_repeated (fun _ _ => Simple.endsSolid) hr

theorem Linked.endsSolid {p : List Char} {tokens : Group} (h : Linked p tokens) :
    EndsSolid p := by
  cases h with
  | intro _ hr =>
    apply endsSolid_append_of_ne_nil hr.endsSolid
    obtain ⟨c, q, rfl, -⟩ := hr.head
    simp

theorem Complex.endsSolid {p : List Char} {tokens : Group} (h : Complex p tokens) :
    EndsSolid p := by
  cases h with
  | intro hq hr =>
    exact endsSolid_append hq.endsSolid (endsSolid_repeated (fun _ _ => Linked.endsSolid) hr)

theorem Next.endsSolid {p : List Char} {tokens : Group} (h : Next p tokens) :
    EndsSolid p := by
  cases h with
  | @intro v w q _ hv hw hq =>
    rw [show v ++ ',' :: (w ++ q) = (v ++ ',' :: w) ++ q by simp]
    apply endsSolid_append_of_ne_nil hq.endsSolid
    obtain ⟨c, r, rfl, -⟩ := hq.head
    simp

/-! ## Lists -/

/-- The groups of a list, without blanks around them. -/
def groups : Reader (Group × List Group) :=
  andThen group (repeated nextGroup nextGroup_consumes)

/-- A group, and further groups with commas before them. -/
def Groups : Sentences (Group × List Group) :=
  Sentences.Then Complex (Sentences.Repeated Next)

/-- A comma with the blanks before it ends the group before them. -/
theorem Next.endsGroup {p : List Char} {tokens : Group} (h : Next p tokens)
    (tail : List Char) : EndsGroup (p ++ tail) := by
  cases h with
  | @intro v w q _ hv hw hq =>
    rw [List.append_assoc, List.cons_append]
    exact endsGroup_comma hv _

/-- The groups of a list are read longest. -/
theorem groups_readsLongest :
    ReadsLongest groups Groups (fun t => EndsGroup t ∧ nextGroup t = none) := by
  refine group_readsLongest.andThen (nextGroup_readsLongest.repeated nextGroup_consumes
    fun p tokens t hp => hp.endsGroup t) ?_ ?_ (fun _ => id)
  · intro r others t hr hne
    cases hr with
    | nil => exact absurd rfl hne
    | cons hp _ =>
      rw [List.append_assoc]
      exact hp.endsGroup _
  · intro others t _ ht
    exact ht.1

theorem Groups.endsSolid {p : List Char} {x : Group × List Group} (h : Groups p x) :
    EndsSolid p := by
  obtain ⟨q, r, rfl, hq, hr⟩ := h
  exact endsSolid_append hq.endsSolid (endsSolid_repeated (fun _ _ => Next.endsSolid) hr)

theorem Groups.head {p : List Char} {x : Group × List Group} (h : Groups p x) :
    ∃ c q, p = c :: q ∧ isBlank c = false := by
  obtain ⟨q, r, rfl, hq, hr⟩ := h
  have hlink := hq.endsLink []
  obtain ⟨c, q, rfl, -⟩ := hq.head
  exact ⟨c, _, rfl, (hlink c rfl).1⟩

/-- A list is its groups with the blanks around them. -/
theorem selectorList_eq (cs : List Char) :
    selectorList cs = (groups (skipBlanks cs)).map fun x =>
      (x.1.1 :: x.1.2, skipBlanks x.2) := by
  unfold selectorList groups andThen
  cases group (skipBlanks cs) <;> rfl

theorem selectorList_sound {cs rest : List Char} {gs : List Group}
    (h : selectorList cs = some (gs, rest)) : ∃ p, cs = p ++ rest ∧ SelectorList p gs := by
  rw [selectorList_eq] at h
  obtain ⟨⟨⟨first, others⟩, middle⟩, hread, heq⟩ := Option.map_eq_some_iff.1 h
  simp only [Prod.mk.injEq] at heq
  obtain ⟨rfl, rfl⟩ := heq
  obtain ⟨v, hcs, hv⟩ := exists_blanks cs
  obtain ⟨w, hmiddle, hw⟩ := exists_blanks middle
  obtain ⟨_, hsplit, q, r, rfl, hq, hr⟩ := groups_readsLongest.sound hread
  refine ⟨v ++ (q ++ (r ++ w)), ?_, .intro hv hq hr hw⟩
  rw [hcs, hsplit]
  conv => lhs; rw [hmiddle]
  simp only [List.append_assoc]

/-- A list whose groups are read as far as blanks behind other groups has just those other
groups, since it cannot end in the blanks. -/
theorem groups_eq_of_rest {p u t : List Char} {x y : Group × List Group} (hp : Groups p x)
    (hu : Blanks u) (hread : groups (p ++ (u ++ t)) = some (y, t)) : y = x := by
  obtain ⟨s, hsplit, hs⟩ := groups_readsLongest.sound hread
  rw [← List.append_assoc] at hsplit
  have heq : p ++ u = s := List.append_cancel_right hsplit
  by_cases hne : u = []
  · -- nothing was read behind the groups
    subst hne
    obtain ⟨z, rest, hread', -, hvalue, -⟩ := groups_readsLongest.reach t hp
    rw [List.nil_append, hread'] at hread
    simp only [Option.some.injEq, Prod.mk.injEq] at hread
    obtain ⟨rfl, rfl⟩ := hread
    exact hvalue rfl
  · -- otherwise the groups that were read end in a blank
    exfalso
    have hlast := List.getLast_mem hne
    have hsolid := hs.endsSolid
    rw [← heq] at hsolid
    have hnot := hsolid (u.getLast hne) (by
      rw [List.getLast?_append, List.getLast?_eq_some_getLast hne, Option.some_or]
      rfl)
    rw [isBlank_iff.2 (hu _ hlast)] at hnot
    simp at hnot

/-- Lists are read longest. -/
theorem selectorList_readsLongest :
    ReadsLongest selectorList SelectorList (fun _ => False) := by
  refine ⟨selectorList_sound, ?_⟩
  intro p gs tail hp
  cases hp with
  | @intro v q r w first others hv hq hr hw =>
    have hgroups : Groups (q ++ r) (first, others) := ⟨q, r, rfl, hq, hr⟩
    obtain ⟨x, rest, hread, hrest, -, -⟩ := groups_readsLongest.reach (w ++ tail) hgroups
    have hskip : skipBlanks ((v ++ (q ++ (r ++ w))) ++ tail) = (q ++ r) ++ (w ++ tail) := by
      obtain ⟨c, t, heq, hc⟩ := hgroups.head
      rw [List.append_assoc, skipBlanks_append hv,
        show (q ++ (r ++ w)) ++ tail = (q ++ r) ++ (w ++ tail) by simp, heq, List.cons_append,
        skipBlanks_cons hc]
    have hlist : selectorList ((v ++ (q ++ (r ++ w))) ++ tail) =
        some (x.1 :: x.2, skipBlanks rest) := by
      rw [selectorList_eq, hskip, hread]
      rfl
    obtain ⟨u, hu⟩ := hrest
    refine ⟨_, _, hlist, ?_, ?_, False.elim⟩
    · -- either blanks are left over in front of the tail, or a part of the tail is read
      rcases List.append_eq_append_iff.1 hu with ⟨w', hw', rfl⟩ | ⟨t, -, rfl⟩
      · have hblanks : Blanks w' := fun c hc => hw c (by simp [hw', hc])
        rw [skipBlanks_append hblanks]
        exact skipBlanks_suffix tail
      · exact (skipBlanks_suffix rest).trans (List.suffix_append t rest)
    · -- only blanks were read behind the groups, and blanks were left in front of the tail
      intro heq
      obtain ⟨w', hrest, -⟩ := exists_blanks rest
      rw [heq] at hrest
      have hsplit : u ++ w' = w := by
        have happend : (u ++ w') ++ tail = w ++ tail := by
          rw [List.append_assoc, ← hrest, hu]
        exact List.append_cancel_right happend
      have hblanks : Blanks u := fun c hc => hw c (by simp [← hsplit, hc])
      rw [← hu] at hread
      rw [groups_eq_of_rest hgroups hblanks hread]

/-! ## The longest list -/

theorem read_eq_ok_iff {cs rest : List Char} {groups : List Group} :
    read cs = .ok (groups, rest) ↔ selectorList cs = some (groups, rest) := by
  unfold read
  cases selectorList cs <;> simp

theorem selectorList_of_read_error {cs : List Char} {fault : Fault}
    (h : read cs = .error fault) : selectorList cs = none := by
  unfold read at h
  cases hlist : selectorList cs with
  | none => rfl
  | some answer => simp [hlist] at h

/-- Every text is read as its grammar says: the longest selector list at the front of it is
taken, with the tokens of that list, of which there is only one reading. Where no front of
the text is a list, the text is at fault behind its blanks. -/
theorem read_longest (cs : List Char) :
    (∀ groups rest, read cs = .ok (groups, rest) ↔
      ∃ p, cs = p ++ rest ∧ SelectorList p groups ∧
        ∀ p' groups', SelectorList p' groups' → p' <+: cs → p'.length ≤ p.length) ∧
    (∀ fault, read cs = .error fault ↔
      (∀ p groups, p <+: cs → ¬ SelectorList p groups) ∧
        fault = ⟨utf8Length (cs.takeWhile isBlank), noCompound⟩) ∧
    (∀ p groups groups', SelectorList p groups → SelectorList p groups' →
      groups = groups') := by
  have hlist := selectorList_readsLongest
  refine ⟨?_, ?_, fun p gs gs' => hlist.unique⟩
  · intro gs rest
    rw [← hlist.eq_some_iff, read]
    cases selectorList cs <;> simp
  · intro fault
    rw [← hlist.eq_none_iff, read]
    have hsplit : cs.takeWhile isBlank ++ skipBlanks cs = cs := List.takeWhile_append_dropWhile
    have hoffset : offsetOf cs (skipBlanks cs) = utf8Length (cs.takeWhile isBlank) :=
      calc offsetOf cs (skipBlanks cs)
          = offsetOf (cs.takeWhile isBlank ++ skipBlanks cs) (skipBlanks cs) := by rw [hsplit]
        _ = utf8Length (cs.takeWhile isBlank) := offsetOf_append _ _
    cases selectorList cs with
    | none => simp [hoffset, eq_comm]
    | some answer => simp

end MarkupQuery.Selector.Grammar

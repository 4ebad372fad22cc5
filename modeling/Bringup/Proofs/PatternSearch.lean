import Bringup.Text.Pattern

/-!
# Searching for a pattern

The places of a text stand in a row, and so do the ends of a repetition, the farthest first. A search takes the first
of them that serves, so what it finds is told by which ones serve and by how far on they are.

* `findSome?_of_pairwise`: what is found in a row.
* `Spot.mem_all`, `Pattern.mem_ends_many`: which places stand in the two rows.
* `Pattern.head?_ends_seq`: the preferred end of two patterns in sequence.
-/

namespace Bringup.Text

set_option autoImplicit false

/-- In a row, the one that is found serves and none before it does. -/
theorem findSome?_of_pairwise {α β : Type} {R : α → α → Prop} {l : List α} (hl : l.Pairwise R)
    (hR : ∀ x y, R x y → ¬ R y x) {f : α → Option β} {b : β} :
    l.findSome? f = some b ↔ ∃ a ∈ l, f a = some b ∧ ∀ x ∈ l, R x a → f x = none := by
  rw [List.findSome?_eq_some_iff]
  constructor
  · rintro ⟨before, a, after, rfl, hfound, hbefore⟩
    refine ⟨a, by simp, hfound, fun x hx hxa => ?_⟩
    have hlater := (List.pairwise_cons.mp (List.pairwise_append.mp hl).2.1).1
    rcases List.mem_append.mp hx with hx | hx
    · exact hbefore x hx
    · rcases List.mem_cons.mp hx with rfl | hx
      · exact absurd hxa (hR _ _ hxa)
      · exact absurd hxa (hR _ _ (hlater x hx))
  · rintro ⟨a, ha, hfound, hbefore⟩
    obtain ⟨before, after, rfl⟩ := List.append_of_mem ha
    refine ⟨before, a, after, rfl, hfound, fun x hx => hbefore x (by simp [hx]) ?_⟩
    exact (List.pairwise_append.mp hl).2.2 x hx a List.mem_cons_self

namespace Spot

/-- One place stands before another. -/
def Before (s t : Spot) : Prop := s.past.length < t.past.length

theorem Before.asymm (s t : Spot) (h : s.Before t) : ¬ t.Before s := by
  unfold Before at *
  omega

theorem eq_mk_iff {s : Spot} {past rest : List Char} : s = ⟨past, rest⟩ ↔ s.past = past ∧ s.rest = rest := by
  cases s
  simp

theorem after_cons (past : List Char) (c : Char) (rest : List Char) :
    after past (c :: rest) = ⟨past, c :: rest⟩ :: after (c :: past) rest := rfl

theorem mem_after {s : Spot} {past rest : List Char} :
    s ∈ after past rest ↔ ∃ passed, rest = passed ++ s.rest ∧ s.past = passed.reverse ++ past := by
  induction rest generalizing past with
  | nil =>
    refine List.mem_singleton.trans ?_
    rw [eq_mk_iff]
    constructor
    · rintro ⟨hpast, hrest⟩
      exact ⟨[], hrest.symm, hpast⟩
    · rintro ⟨passed, hrest, hpast⟩
      obtain ⟨rfl, hnil⟩ := List.append_eq_nil_iff.mp hrest.symm
      exact ⟨hpast, hnil⟩
  | cons c rest ih =>
    rw [after_cons, List.mem_cons, ih, eq_mk_iff]
    constructor
    · rintro (⟨hpast, hrest⟩ | ⟨passed, hrest, hpast⟩)
      · exact ⟨[], hrest.symm, hpast⟩
      · exact ⟨c :: passed, by rw [hrest]; rfl, by simp [hpast]⟩
    · rintro ⟨passed, hrest, hpast⟩
      cases passed with
      | nil => exact .inl ⟨hpast, hrest.symm⟩
      | cons d passed =>
        obtain ⟨rfl, htail⟩ := List.cons_eq_cons.mp hrest
        exact .inr ⟨passed, htail, by simp [hpast]⟩

theorem pairwise_after (past rest : List Char) : (after past rest).Pairwise Before := by
  induction rest generalizing past with
  | nil => exact List.pairwise_singleton _ _
  | cons c rest ih =>
    refine List.pairwise_cons.mpr ⟨fun s hs => ?_, ih (c :: past)⟩
    obtain ⟨passed, _, hpast⟩ := mem_after.mp hs
    have hlength := congrArg List.length hpast
    simp only [List.length_append, List.length_reverse, List.length_cons] at hlength
    change past.length < s.past.length
    omega

/-- The places of a text are where it can be cut. -/
theorem mem_all {s : Spot} {text : List Char} : s ∈ all text ↔ text = s.past.reverse ++ s.rest := by
  rw [all, mem_after]
  constructor
  · rintro ⟨passed, htext, hpast⟩
    rw [htext, hpast, List.append_nil, List.reverse_reverse]
  · intro htext
    exact ⟨s.past.reverse, htext, by simp⟩

theorem pairwise_all (text : List Char) : (all text).Pairwise Before := pairwise_after [] text

end Spot

namespace Pattern

variable {cls : Char → Bool} {s e : Spot}

theorem runEnds_nil (cls : Char → Bool) (found : List Spot) (past : List Char) :
    runEnds cls found past [] = ⟨past, []⟩ :: found := rfl

theorem runEnds_step (cls : Char → Bool) (found : List Spot) (past : List Char) (c : Char) (rest : List Char) :
    runEnds cls found past (c :: rest) =
      if cls c then runEnds cls (⟨past, c :: rest⟩ :: found) (c :: past) rest else ⟨past, c :: rest⟩ :: found := rfl

theorem runEnds_append (cls : Char → Bool) (found : List Spot) (past rest : List Char) :
    runEnds cls found past rest = runEnds cls [] past rest ++ found := by
  induction rest generalizing found past with
  | nil => rfl
  | cons c rest ih =>
    by_cases hc : cls c = true
    · rw [runEnds_step, runEnds_step, if_pos hc, if_pos hc, ih, ih [_], List.append_assoc]
      rfl
    · rw [runEnds_step, runEnds_step, if_neg hc, if_neg hc]
      rfl

theorem runEnds_cons {c : Char} (hc : cls c = true) (past rest : List Char) :
    runEnds cls [] past (c :: rest) = runEnds cls [] (c :: past) rest ++ [⟨past, c :: rest⟩] := by
  rw [runEnds_step, if_pos hc, runEnds_append]

theorem runEnds_stop {c : Char} (hc : ¬ cls c = true) (past rest : List Char) :
    runEnds cls [] past (c :: rest) = [⟨past, c :: rest⟩] := by
  rw [runEnds_step, if_neg hc]

theorem mem_runEnds {past rest : List Char} :
    e ∈ runEnds cls [] past rest ↔
      ∃ run, rest = run ++ e.rest ∧ e.past = run.reverse ++ past ∧ ∀ c ∈ run, cls c = true := by
  induction rest generalizing past with
  | nil =>
    rw [runEnds_nil, List.mem_singleton, Spot.eq_mk_iff]
    constructor
    · rintro ⟨hpast, hrest⟩
      exact ⟨[], hrest.symm, hpast, by simp⟩
    · rintro ⟨run, hrest, hpast, _⟩
      obtain ⟨rfl, hnil⟩ := List.append_eq_nil_iff.mp hrest.symm
      exact ⟨hpast, hnil⟩
  | cons d rest ih =>
    by_cases hd : cls d = true
    · rw [runEnds_cons hd, List.mem_append, ih, List.mem_singleton, Spot.eq_mk_iff]
      constructor
      · rintro (⟨run, hrest, hpast, hrun⟩ | ⟨hpast, hrest⟩)
        · exact ⟨d :: run, by rw [hrest]; rfl, by simp [hpast], List.forall_mem_cons.mpr ⟨hd, hrun⟩⟩
        · exact ⟨[], hrest.symm, hpast, by simp⟩
      · rintro ⟨run, hrest, hpast, hrun⟩
        cases run with
        | nil => exact .inr ⟨hpast, hrest.symm⟩
        | cons c run =>
          obtain ⟨rfl, htail⟩ := List.cons_eq_cons.mp hrest
          exact .inl ⟨run, htail, by simp [hpast], (List.forall_mem_cons.mp hrun).2⟩
    · rw [runEnds_stop hd, List.mem_singleton, Spot.eq_mk_iff]
      constructor
      · rintro ⟨hpast, hrest⟩
        exact ⟨[], hrest.symm, hpast, by simp⟩
      · rintro ⟨run, hrest, hpast, hrun⟩
        cases run with
        | nil => exact ⟨hpast, hrest.symm⟩
        | cons c run =>
          obtain ⟨rfl, _⟩ := List.cons_eq_cons.mp hrest
          exact absurd (hrun d List.mem_cons_self) hd

theorem pairwise_runEnds (cls : Char → Bool) (past rest : List Char) :
    (runEnds cls [] past rest).Pairwise fun s t => t.Before s := by
  induction rest generalizing past with
  | nil => exact List.pairwise_singleton _ _
  | cons c rest ih =>
    by_cases hc : cls c = true
    · rw [runEnds_cons hc, List.pairwise_append]
      refine ⟨ih _, List.pairwise_singleton _ _, fun s hs t ht => ?_⟩
      obtain rfl := List.mem_singleton.mp ht
      obtain ⟨run, _, hpast, _⟩ := mem_runEnds.mp hs
      have hlength := congrArg List.length hpast
      simp only [List.length_append, List.length_reverse, List.length_cons] at hlength
      change past.length < s.past.length
      omega
    · rw [runEnds_stop hc]
      exact List.pairwise_singleton _ _

/-- A repetition ends after every run of its class. -/
theorem mem_ends_many :
    e ∈ (many cls).ends s ↔
      ∃ run, s.rest = run ++ e.rest ∧ e.past = run.reverse ++ s.past ∧ ∀ c ∈ run, cls c = true :=
  mem_runEnds

/-- The farthest end of a repetition comes first. -/
theorem pairwise_ends_many (cls : Char → Bool) (s : Spot) :
    ((many cls).ends s).Pairwise fun s t => t.Before s := pairwise_runEnds cls s.past s.rest

theorem head?_ends_seq (p q : Pattern) (s : Spot) :
    ((seq p q).ends s).head? = (p.ends s).findSome? fun m => (q.ends m).head? :=
  List.head?_flatMap

theorem ends_seq_assoc (p q r : Pattern) (s : Spot) : (seq (seq p q) r).ends s = (seq p (seq q r)).ends s :=
  List.flatMap_assoc

theorem ends_one_cons (cls : Char → Bool) (past : List Char) (c : Char) (rest : List Char) :
    (one cls).ends ⟨past, c :: rest⟩ = if cls c then [⟨c :: past, rest⟩] else [] := rfl

theorem ends_one_seq_cons {q : Pattern} {c : Char} (hc : cls c = true) (past rest : List Char) :
    (seq (one cls) q).ends ⟨past, c :: rest⟩ = q.ends ⟨c :: past, rest⟩ := by
  change ((one cls).ends ⟨past, c :: rest⟩).flatMap q.ends = _
  rw [ends_one_cons, if_pos hc, List.flatMap_singleton]

theorem ends_one_seq_of_not {q : Pattern} (hs : ∀ c ∈ s.rest.head?, cls c = false) : (seq (one cls) q).ends s = [] := by
  obtain ⟨past, rest⟩ := s
  cases rest with
  | nil => rfl
  | cons c rest =>
    change ((one cls).ends ⟨past, c :: rest⟩).flatMap q.ends = _
    rw [ends_one_cons, hs c rfl, if_neg Bool.false_ne_true, List.flatMap_nil]

/-- A character of the class is taken, or there is no end. -/
theorem ends_one_seq (cls : Char → Bool) (q : Pattern) (s : Spot) :
    (∃ c rest, s.rest = c :: rest ∧ cls c = true ∧ (seq (one cls) q).ends s = q.ends ⟨c :: s.past, rest⟩) ∨
      (∀ c rest, s.rest = c :: rest → ¬ cls c = true) ∧ (seq (one cls) q).ends s = [] := by
  by_cases hs : ∃ c rest, s.rest = c :: rest ∧ cls c = true
  · obtain ⟨c, rest, hrest, hc⟩ := hs
    refine .inl ⟨c, rest, hrest, hc, ?_⟩
    rw [Spot.eq_mk_iff.mpr ⟨rfl, hrest⟩]
    exact ends_one_seq_cons hc s.past rest
  · have hnot : ∀ c rest, s.rest = c :: rest → ¬ cls c = true := fun c rest hrest hc => hs ⟨c, rest, hrest, hc⟩
    refine .inr ⟨hnot, ends_one_seq_of_not fun c hc => ?_⟩
    obtain ⟨rest, hrest⟩ := List.head?_eq_some_iff.mp hc
    exact Bool.eq_false_iff.mpr (hnot c rest hrest)

theorem head?_ends_one_seq {q : Pattern} :
    ((seq (one cls) q).ends s).head? = .some e ↔
      ∃ c rest, s.rest = c :: rest ∧ cls c = true ∧ (q.ends ⟨c :: s.past, rest⟩).head? = .some e := by
  rcases ends_one_seq cls q s with ⟨c, rest, hrest, hc, hends⟩ | ⟨hnot, hends⟩
  · rw [hends]
    constructor
    · exact fun h => ⟨c, rest, hrest, hc, h⟩
    · rintro ⟨d, left, heq, _, h⟩
      obtain ⟨rfl, rfl⟩ := List.cons_eq_cons.mp (hrest.symm.trans heq)
      exact h
  · rw [hends]
    constructor
    · rintro ⟨⟩
    · rintro ⟨c, rest, hrest, hc, _⟩
      exact absurd hc (hnot c rest hrest)

theorem mem_ends_one_seq {q : Pattern} :
    e ∈ (seq (one cls) q).ends s ↔
      ∃ c rest, s.rest = c :: rest ∧ cls c = true ∧ e ∈ q.ends ⟨c :: s.past, rest⟩ := by
  rcases ends_one_seq cls q s with ⟨c, rest, hrest, hc, hends⟩ | ⟨hnot, hends⟩
  · rw [hends]
    constructor
    · exact fun h => ⟨c, rest, hrest, hc, h⟩
    · rintro ⟨d, left, heq, _, h⟩
      obtain ⟨rfl, rfl⟩ := List.cons_eq_cons.mp (hrest.symm.trans heq)
      exact h
  · rw [hends]
    constructor
    · exact fun h => absurd h List.not_mem_nil
    · rintro ⟨c, rest, hrest, hc, _⟩
      exact absurd hc (hnot c rest hrest)

/-- What orders the ends of a pattern orders them also after a character. -/
theorem pairwise_ends_one_seq {R : Spot → Spot → Prop} {q : Pattern} (hq : ∀ m, (q.ends m).Pairwise R) (s : Spot) :
    ((seq (one cls) q).ends s).Pairwise R := by
  rcases ends_one_seq cls q s with ⟨c, rest, _, _, hends⟩ | ⟨_, hends⟩
  · rw [hends]
    exact hq _
  · rw [hends]
    exact List.Pairwise.nil

theorem head?_ends_literal_seq {cs : List Char} {q : Pattern} :
    ((seq (literal cs) q).ends s).head? = .some e ↔
      ∃ rest, s.rest = cs ++ rest ∧ (q.ends ⟨cs.reverse ++ s.past, rest⟩).head? = .some e := by
  induction cs generalizing s with
  | nil =>
    have hends : (seq (literal []) q).ends s = q.ends s := List.flatMap_singleton _ _
    simp [hends]
  | cons c cs ih =>
    have hends : (seq (literal (c :: cs)) q).ends s = (seq (one (· == c)) (seq (literal cs) q)).ends s :=
      ends_seq_assoc _ _ _ _
    rw [hends, head?_ends_one_seq]
    simp only [ih, beq_iff_eq]
    constructor
    · rintro ⟨d, left, hrest, rfl, rest, rfl, hfound⟩
      exact ⟨rest, hrest, by simpa using hfound⟩
    · rintro ⟨rest, hrest, hfound⟩
      exact ⟨c, cs ++ rest, hrest, rfl, rest, rfl, by simpa using hfound⟩

/-- A farther end is reached over the character that follows a nearer one. -/
theorem mem_run_of_before {run run' : List Char} (hsplit : s.rest = run ++ e.rest)
    (hpast : e.past = run.reverse ++ s.past) {x : Spot} (hsplit' : s.rest = run' ++ x.rest)
    (hpast' : x.past = run'.reverse ++ s.past) (hfarther : e.Before x) :
    ∃ c ∈ e.rest.head?, c ∈ run' := by
  have hlonger : run.length < run'.length := by
    unfold Spot.Before at hfarther
    simp only [hpast, hpast', List.length_append, List.length_reverse] at hfarther
    omega
  rw [hsplit'] at hsplit
  rcases List.append_eq_append_iff.mp hsplit with ⟨more, rfl, _⟩ | ⟨more, rfl, hmore⟩
  · simp only [List.length_append] at hlonger
    omega
  · cases more with
    | nil => simp at hlonger
    | cons c more => exact ⟨c, by simp [hmore], by simp⟩

/-- Up to a character that is not of the class, only the longest run leads there. -/
theorem head?_ends_many_one_seq {d : Char} (hd : cls d = false) {q : Pattern} :
    ((seq (many cls) (seq (one (· == d)) q)).ends s).head? = .some e ↔
      ∃ run rest, s.rest = run ++ d :: rest ∧ (∀ c ∈ run, cls c = true) ∧
        (q.ends ⟨d :: (run.reverse ++ s.past), rest⟩).head? = .some e := by
  rw [head?_ends_seq, findSome?_of_pairwise (pairwise_ends_many cls s) fun x y => Spot.Before.asymm y x]
  simp only [head?_ends_one_seq, beq_iff_eq]
  constructor
  · rintro ⟨m, hm, ⟨c, rest, hrest, rfl, hfound⟩, _⟩
    obtain ⟨run, hsplit, hpast, hrun⟩ := mem_ends_many.mp hm
    rw [hrest] at hsplit
    rw [hpast] at hfound
    exact ⟨run, rest, hsplit, hrun, hfound⟩
  · rintro ⟨run, rest, hsplit, hrun, hfound⟩
    refine ⟨⟨run.reverse ++ s.past, d :: rest⟩, mem_ends_many.mpr ⟨run, hsplit, rfl, hrun⟩,
      ⟨d, rest, rfl, rfl, hfound⟩, fun x hx hfarther => ?_⟩
    obtain ⟨run', hsplit', hpast', hrun'⟩ := mem_ends_many.mp hx
    obtain ⟨c, hc, hmem⟩ := mem_run_of_before hsplit rfl hsplit' hpast' hfarther
    obtain rfl := Option.some.inj hc
    rw [hrun' d hmem] at hd
    cases hd

theorem exists_last_of_run {d : Char} (hd : cls d = true) {run : List Char} (hrun : ∀ c ∈ run, cls c = true)
    (past : List Char) : ∃ c before, run.reverse ++ d :: past = c :: before ∧ cls c = true := by
  cases hreverse : run.reverse with
  | nil => exact ⟨d, past, rfl, hd⟩
  | cons c cs => exact ⟨c, cs ++ d :: past, rfl, hrun c (List.mem_reverse.mp (hreverse ▸ List.mem_cons_self))⟩

/-- Where a pattern cannot go on between two characters of the class, only the longest run leads to it. -/
theorem head?_ends_many_seq {q : Pattern} {d : Char} {past rest : List Char} (hd : cls d = true)
    (hq : ∀ c c' before after, cls c = true → cls c' = true → q.ends ⟨c :: before, c' :: after⟩ = []) :
    ((seq (many cls) q).ends ⟨d :: past, rest⟩).head? = .some e ↔
      ∃ run left, rest = run ++ left ∧ (∀ c ∈ run, cls c = true) ∧ (∀ c ∈ left.head?, cls c = false) ∧
        (q.ends ⟨run.reverse ++ d :: past, left⟩).head? = .some e := by
  rw [head?_ends_seq, findSome?_of_pairwise (pairwise_ends_many cls _) fun x y => Spot.Before.asymm y x]
  constructor
  · rintro ⟨m, hm, hfound, _⟩
    obtain ⟨run, hsplit, hpast, hrun⟩ := mem_ends_many.mp hm
    have hm : m = ⟨run.reverse ++ d :: past, m.rest⟩ := Spot.eq_mk_iff.mpr ⟨hpast, rfl⟩
    rw [hm] at hfound
    refine ⟨run, m.rest, hsplit, hrun, fun c hc => ?_, hfound⟩
    obtain ⟨after, hafter⟩ := List.head?_eq_some_iff.mp hc
    cases hcls : cls c with
    | false => rfl
    | true =>
      -- The run could go on, and the pattern would have to follow between two characters of the class.
      obtain ⟨x, before, hx, hcls'⟩ := exists_last_of_run hd hrun past
      rw [hx, hafter, hq x c before after hcls' hcls] at hfound
      cases hfound
  · rintro ⟨run, left, hsplit, hrun, hstop, hfound⟩
    refine ⟨⟨run.reverse ++ d :: past, left⟩, mem_ends_many.mpr ⟨run, hsplit, rfl, hrun⟩, hfound,
      fun x hx hfarther => ?_⟩
    obtain ⟨run', hsplit', hpast', hrun'⟩ := mem_ends_many.mp hx
    obtain ⟨c, hc, hmem⟩ := mem_run_of_before hsplit rfl hsplit' hpast' hfarther
    have hclash := hstop c hc
    rw [hrun' c hmem] at hclash
    cases hclash

/-- A repetition at the end of a pattern takes as much as it can. -/
theorem head?_ends_many_empty :
    ((seq (many cls) empty).ends s).head? = .some e ↔
      ∃ run, s.rest = run ++ e.rest ∧ e.past = run.reverse ++ s.past ∧ (∀ c ∈ run, cls c = true) ∧
        ∀ c ∈ e.rest.head?, cls c = false := by
  have hempty : ∀ m, (empty.ends m).head? = .some m := fun _ => rfl
  rw [head?_ends_seq, findSome?_of_pairwise (pairwise_ends_many cls s) fun x y => Spot.Before.asymm y x]
  simp only [hempty]
  constructor
  · rintro ⟨m, hm, hme, hfarthest⟩
    obtain rfl := Option.some.inj hme
    obtain ⟨run, hsplit, hpast, hrun⟩ := mem_ends_many.mp hm
    refine ⟨run, hsplit, hpast, hrun, fun c hc => ?_⟩
    obtain ⟨rest, hrest⟩ := List.head?_eq_some_iff.mp hc
    cases hcls : cls c with
    | false => rfl
    | true =>
      -- One more character could be taken.
      have hnext : (⟨c :: m.past, rest⟩ : Spot) ∈ (many cls).ends s := by
        refine mem_ends_many.mpr ⟨run ++ [c], by simp [hsplit, hrest], by simp [hpast], ?_⟩
        simpa [or_imp, forall_and, hcls] using hrun
      cases hfarthest _ hnext (Nat.lt_succ_self _)
  · rintro ⟨run, hsplit, hpast, hrun, hstop⟩
    refine ⟨e, mem_ends_many.mpr ⟨run, hsplit, hpast, hrun⟩, rfl, fun x hx hfarther => ?_⟩
    obtain ⟨run', hsplit', hpast', hrun'⟩ := mem_ends_many.mp hx
    obtain ⟨c, hc, hmem⟩ := mem_run_of_before hsplit hpast hsplit' hpast' hfarther
    have hclash := hstop c hc
    rw [hrun' c hmem] at hclash
    cases hclash

end Pattern

end Bringup.Text

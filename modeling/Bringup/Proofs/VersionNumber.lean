import Bringup.Version
import Bringup.Proofs.PatternSearch

/-!
# Version numbers in a text

A number of dotted parts is read from a place where a word may start up to a place where it may end. Such a reading is
never a matter of choice, so the two searches, with all their repetitions, come down to a look for the leftmost place
from which there is one.

* `Start`: a place from which a number of so many parts is read. `Extension`: what may be taken after it.
* `find?_triple_eq_some_iff`, `find?_pair_eq_some_iff`: what the searches find.
* `version_is_read_from_first_start`: the version that a text names.
-/

namespace Bringup.Version

set_option autoImplicit false

open Bringup.Text

variable {text : List Char}

/-! ## Digits and words -/

theorem digitRanges_in_words : ∀ r ∈ digitRanges,
    (r.2 < 0x1000 ∧ ∃ w ∈ wordRangesLow, w.1 ≤ r.1 ∧ r.2 ≤ w.2) ∨
    (0x1000 ≤ r.1 ∧ r.2 < 0x10000 ∧ ∃ w ∈ wordRangesMiddle, w.1 ≤ r.1 ∧ r.2 ≤ w.2) ∨
    (0x10000 ≤ r.1 ∧ ∃ w ∈ wordRangesHigh, w.1 ≤ r.1 ∧ r.2 ≤ w.2) := by
  decide +kernel

theorem inRanges_of_within {table : Ranges} {r : Nat × Nat} (h : ∃ w ∈ table, w.1 ≤ r.1 ∧ r.2 ≤ w.2) {c : Char}
    (hlow : r.1 ≤ c.toNat) (hhigh : c.toNat ≤ r.2) : inRanges table c = true := by
  obtain ⟨w, hw, hfirst, hlast⟩ := h
  exact (inRanges_iff table c).mpr ⟨w, hw, by omega, by omega⟩

/-- A digit of any script may stand inside a word. -/
theorem isWord_of_isDigit {c : Char} (hc : isDigit c = true) : isWord c = true := by
  rw [isDigit, Bool.or_eq_true, Bool.and_eq_true, decide_eq_true_eq, inRanges_iff] at hc
  unfold isWord
  rcases hc with hascii | ⟨hbeyond, r, hr, hlow, hhigh⟩
  · have hsmall : c.toNat < 0x80 := by
      simp only [Char.isDigit, Bool.and_eq_true, decide_eq_true_eq] at hascii
      have hle : c.val.toNat ≤ 57 := UInt32.le_iff_toNat_le.mp hascii.2
      change c.val.toNat < 0x80
      omega
    rw [if_pos hsmall, Char.isAlphanum, hascii]
    simp
  · rw [if_neg (by omega)]
    rcases digitRanges_in_words r hr with ⟨hsize, h⟩ | ⟨hsize, hsize', h⟩ | ⟨hsize, h⟩
    · rw [if_pos (by omega)]
      exact inRanges_of_within h hlow hhigh
    · rw [if_neg (by omega), if_pos (by omega)]
      exact inRanges_of_within h hlow hhigh
    · rw [if_neg (by omega), if_neg (by omega)]
      exact inRanges_of_within h hlow hhigh

/-! ## Readings -/

/-- A run of digits. -/
def IsRun (run : List Char) : Prop := run ≠ [] ∧ ∀ c ∈ run, isDigit c = true

/-- Parts with single points between them. -/
def dotted (runs : List (List Char)) : List Char := ['.'].intercalate runs

/-- No word character follows. -/
def EndsWord (after : List Char) : Prop := ∀ c ∈ after.head?, isWord c = false

/-- A place of a text from which a number of `k` parts is read. No word character stands before it or after it, so that
each run is as long as it can be. -/
structure Start (k : Nat) (text : List Char) where
  before : List Char
  runs : List (List Char)
  after : List Char
  text_eq : text = before ++ (dotted runs ++ after)
  length_runs : runs.length = k
  isRun : ∀ run ∈ runs, IsRun run
  opens : ∀ c ∈ before.getLast?, isWord c = false
  closes : EndsWord after

namespace Start

variable {k : Nat}

/-- The digits and points of the number. -/
def number (s : Start k text) : List Char := dotted s.runs

/-- No other place of the text from which a number of as many parts is read lies further left. -/
def IsFirst (s : Start k text) : Prop := ∀ other : Start k text, s.before.length ≤ other.before.length

/-- The place before the number. -/
def opening (s : Start k text) : Spot := ⟨s.before.reverse, s.number ++ s.after⟩

/-- The place after the number. -/
def closing (s : Start k text) : Spot := ⟨s.number.reverse ++ s.before.reverse, s.after⟩

end Start

/-- What may be taken after a number: a sign, and a stretch of characters of a suffix that ends at a word boundary. -/
structure Extension (after : List Char) where
  sign : Char
  stretch : List Char
  rest : List Char
  after_eq : after = sign :: (stretch ++ rest)
  isSign : sign = '+' ∨ sign = '-'
  ne_nil : stretch ≠ []
  isSuffix : ∀ c ∈ stretch, isSuffixChar c = true
  atBoundary : stretch.getLast?.any isWord ≠ rest.head?.any isWord

namespace Extension

variable {after : List Char}

def IsLongest (x : Extension after) : Prop := ∀ other : Extension after, other.stretch.length ≤ x.stretch.length

end Extension

/-- What is taken after a number: the longest extension, or nothing if there is none. -/
def Extends (after extra : List Char) : Prop :=
  (∃ x : Extension after, x.IsLongest ∧ extra = x.sign :: x.stretch) ∨ (¬ Nonempty (Extension after) ∧ extra = [])

theorem Extends.exists_left {after extra : List Char} (h : Extends after extra) : ∃ left, after = extra ++ left := by
  rcases h with ⟨x, -, rfl⟩ | ⟨-, rfl⟩
  · exact ⟨x.rest, x.after_eq⟩
  · exact ⟨after, rfl⟩

/-! ## Runs of digits -/

section

variable {q tail : Pattern} {s e : Spot}

theorem not_isDigit_dot : isDigit '.' = false := by decide

theorem not_isWord_dot : isWord '.' = false := by decide

theorem head?_ends_digits_dot :
    ((Pattern.seq digits (.seq dot q)).ends s).head? = some e ↔
      ∃ run rest, IsRun run ∧ s.rest = run ++ '.' :: rest ∧
        (q.ends ⟨'.' :: (run.reverse ++ s.past), rest⟩).head? = some e := by
  have hends : (Pattern.seq digits (.seq dot q)).ends s =
      (Pattern.seq (.one isDigit) (.seq (.many isDigit) (.seq (.one (· == '.')) q))).ends s :=
    Pattern.ends_seq_assoc _ _ _ _
  simp only [hends, Pattern.head?_ends_one_seq, Pattern.head?_ends_many_one_seq not_isDigit_dot]
  constructor
  · rintro ⟨d, _, hrest, hd, run, rest, rfl, hrun, hfound⟩
    refine ⟨d :: run, rest, ⟨List.cons_ne_nil _ _, List.forall_mem_cons.mpr ⟨hd, hrun⟩⟩, hrest, ?_⟩
    simpa using hfound
  · rintro ⟨run, rest, ⟨hne, hrun⟩, hrest, hfound⟩
    cases run with
    | nil => exact absurd rfl hne
    | cons d run =>
      obtain ⟨hd, hrun⟩ := List.forall_mem_cons.mp hrun
      exact ⟨d, _, hrest, hd, run, rest, rfl, hrun, by simpa using hfound⟩

/-- After a digit, the pattern can end exactly if no word character follows. -/
def ClosesNumber (tail : Pattern) : Prop :=
  ∀ d past rest, isDigit d = true → ((tail.ends ⟨d :: past, rest⟩).head?.isSome = true ↔ EndsWord rest)

theorem ClosesNumber.ends_between (htail : ClosesNumber tail) (c d : Char) (past rest : List Char)
    (hc : isDigit c = true) (hd : isDigit d = true) : tail.ends ⟨c :: past, d :: rest⟩ = [] := by
  have hnot : ¬ EndsWord (d :: rest) := by
    intro hends
    have hword := hends d rfl
    rw [isWord_of_isDigit hd] at hword
    cases hword
  rw [← htail c past (d :: rest) hc] at hnot
  simpa using hnot

theorem head?_ends_digits_tail (htail : ClosesNumber tail) :
    ((Pattern.seq digits tail).ends s).head? = some e ↔
      ∃ run rest, IsRun run ∧ s.rest = run ++ rest ∧ EndsWord rest ∧
        (tail.ends ⟨run.reverse ++ s.past, rest⟩).head? = some e := by
  have hends : (Pattern.seq digits tail).ends s = (Pattern.seq (.one isDigit) (.seq (.many isDigit) tail)).ends s :=
    Pattern.ends_seq_assoc _ _ _ _
  rw [hends, Pattern.head?_ends_one_seq]
  constructor
  · rintro ⟨d, _, hrest, hd, hfound⟩
    obtain ⟨run, rest, rfl, hrun, -, hfound⟩ := (Pattern.head?_ends_many_seq hd htail.ends_between).mp hfound
    obtain ⟨c, past, hc, hdigit⟩ := Pattern.exists_last_of_run hd hrun s.past
    refine ⟨d :: run, rest, ⟨List.cons_ne_nil _ _, List.forall_mem_cons.mpr ⟨hd, hrun⟩⟩, hrest, ?_, by simpa using hfound⟩
    rw [← htail c past rest hdigit, ← hc, hfound]
    rfl
  · rintro ⟨run, rest, ⟨hne, hrun⟩, hrest, hword, hfound⟩
    cases run with
    | nil => exact absurd rfl hne
    | cons d run =>
      obtain ⟨hd, hrun⟩ := List.forall_mem_cons.mp hrun
      refine ⟨d, _, hrest, hd, (Pattern.head?_ends_many_seq hd htail.ends_between).mpr ?_⟩
      refine ⟨run, rest, rfl, hrun, fun c hc => ?_, by simpa using hfound⟩
      -- A digit would be a word character.
      cases hdigit : isDigit c with
      | false => rfl
      | true =>
        have hclash := hword c hc
        rw [isWord_of_isDigit hdigit] at hclash
        cases hclash

/-- So many runs of digits with a point after each, and then a pattern. -/
def lead : Nat → Pattern → Pattern
  | 0, q => q
  | n + 1, q => .seq digits (.seq dot (lead n q))

theorem dotted_cons {run : List Char} {runs : List (List Char)} (hruns : runs ≠ []) :
    dotted (run :: runs) = run ++ '.' :: dotted runs := by
  cases runs with
  | nil => exact absurd rfl hruns
  | cons next runs => simp [dotted, List.intercalate_cons_cons]

theorem head?_ends_lead (htail : ClosesNumber tail) (n : Nat) :
    ((lead n (.seq digits tail)).ends s).head? = some e ↔
      ∃ runs rest, runs.length = n + 1 ∧ (∀ run ∈ runs, IsRun run) ∧ s.rest = dotted runs ++ rest ∧ EndsWord rest ∧
        (tail.ends ⟨(dotted runs).reverse ++ s.past, rest⟩).head? = some e := by
  induction n generalizing s with
  | zero =>
    rw [lead, head?_ends_digits_tail htail]
    constructor
    · rintro ⟨run, rest, hrun, hrest⟩
      exact ⟨[run], rest, rfl, by simpa using hrun, by simpa [dotted] using hrest⟩
    · rintro ⟨runs, rest, hlength, hruns, hrest⟩
      obtain ⟨run, rfl⟩ := List.length_eq_one_iff.mp hlength
      exact ⟨run, rest, hruns run List.mem_cons_self, by simpa [dotted] using hrest⟩
  | succ n ih =>
    rw [lead, head?_ends_digits_dot]
    simp only [ih]
    constructor
    · rintro ⟨run, _, hrun, hrest, runs, rest, hlength, hruns, rfl, hword, hfound⟩
      have hne : runs ≠ [] := List.ne_nil_of_length_eq_add_one hlength
      refine ⟨run :: runs, rest, by simp [hlength], List.forall_mem_cons.mpr ⟨hrun, hruns⟩, ?_, hword, ?_⟩
      · simpa [dotted_cons hne] using hrest
      · simpa [dotted_cons hne] using hfound
    · rintro ⟨runs, rest, hlength, hruns, hrest, hword, hfound⟩
      cases runs with
      | nil => simp at hlength
      | cons run runs =>
        have hlength : runs.length = n + 1 := by simpa using hlength
        have hne : runs ≠ [] := List.ne_nil_of_length_eq_add_one hlength
        obtain ⟨hrun, hruns⟩ := List.forall_mem_cons.mp hruns
        rw [dotted_cons hne] at hrest hfound
        refine ⟨run, dotted runs ++ rest, hrun, by simpa using hrest, runs, rest, hlength, hruns, rfl, hword, ?_⟩
        simpa using hfound

end

theorem exists_first_digit {runs : List (List Char)} (hne : runs ≠ []) (hruns : ∀ run ∈ runs, IsRun run) :
    ∃ d rest, dotted runs = d :: rest ∧ isDigit d = true := by
  cases runs with
  | nil => exact absurd rfl hne
  | cons run runs =>
    obtain ⟨hrun, hdigits⟩ := hruns run List.mem_cons_self
    obtain ⟨d, run, rfl⟩ := List.exists_cons_of_ne_nil hrun
    refine ⟨d, ?_⟩
    cases runs with
    | nil => exact ⟨run, by simp [dotted], hdigits d List.mem_cons_self⟩
    | cons next runs => exact ⟨_, by simp [dotted_cons]; rfl, hdigits d List.mem_cons_self⟩

theorem exists_last_digit {runs : List (List Char)} (hne : runs ≠ []) (hruns : ∀ run ∈ runs, IsRun run)
    (past : List Char) : ∃ d before, (dotted runs).reverse ++ past = d :: before ∧ isDigit d = true := by
  induction runs generalizing past with
  | nil => exact absurd rfl hne
  | cons run runs ih =>
    obtain ⟨hrun, hruns⟩ := List.forall_mem_cons.mp hruns
    by_cases hlast : runs = []
    · obtain ⟨d, rest, hd⟩ := List.exists_cons_of_ne_nil (List.reverse_ne_nil_iff.mpr hrun.1)
      refine ⟨d, rest ++ past, by simp [hlast, dotted, hd], hrun.2 d ?_⟩
      rw [← List.mem_reverse, hd]
      exact List.mem_cons_self
    · obtain ⟨d, before, hd, hdigit⟩ := ih hlast hruns ('.' :: (run.reverse ++ past))
      exact ⟨d, before, by simpa [dotted_cons hlast] using hd, hdigit⟩

theorem Start.runs_ne_nil {k : Nat} (s : Start (k + 1) text) : s.runs ≠ [] :=
  List.ne_nil_of_length_eq_add_one s.length_runs

/-- A number starts with a digit. -/
theorem Start.opening_eq {k : Nat} (s : Start (k + 1) text) :
    ∃ d rest, s.opening = ⟨s.before.reverse, d :: rest⟩ ∧ isDigit d = true := by
  obtain ⟨d, rest, hd, hdigit⟩ := exists_first_digit s.runs_ne_nil s.isRun
  exact ⟨d, rest ++ s.after, by rw [opening, number, hd, List.cons_append], hdigit⟩

/-- A number ends with a digit. -/
theorem Start.closing_eq {k : Nat} (s : Start (k + 1) text) :
    ∃ d past, s.closing = ⟨d :: past, s.after⟩ ∧ isDigit d = true := by
  obtain ⟨d, past, hd, hdigit⟩ := exists_last_digit s.runs_ne_nil s.isRun s.before.reverse
  exact ⟨d, past, by rw [closing, number, hd], hdigit⟩

/-! ## What follows a number -/

section

variable {s e : Spot}

theorem head?_ends_boundary (s : Spot) :
    ((Pattern.seq .boundary .empty).ends s).head? = if s.atBoundary then some s else none := by
  cases h : s.atBoundary with
  | true => simp [Pattern.ends, h]
  | false => simp [Pattern.ends, h]

theorem atBoundary_iff_endsWord {d : Char} (hd : isDigit d = true) (past rest : List Char) :
    (⟨d :: past, rest⟩ : Spot).atBoundary = true ↔ EndsWord rest := by
  cases rest with
  | nil => simp [Spot.atBoundary, EndsWord, isWord_of_isDigit hd]
  | cons c rest => simp [Spot.atBoundary, EndsWord, isWord_of_isDigit hd]

theorem closesNumber_boundary : ClosesNumber (.seq .boundary .empty) := by
  intro d past rest hd
  rw [head?_ends_boundary, ← atBoundary_iff_endsWord hd past rest]
  cases h : (⟨d :: past, rest⟩ : Spot).atBoundary with
  | true => simp
  | false => simp

theorem mem_ends_suffix :
    e ∈ suffix.ends s ↔ ∃ sign stretch, s.rest = sign :: (stretch ++ e.rest) ∧
      e.past = stretch.reverse ++ sign :: s.past ∧ (sign = '+' ∨ sign = '-') ∧ stretch ≠ [] ∧
      ∀ c ∈ stretch, isSuffixChar c = true := by
  simp only [suffix, Pattern.some, Pattern.mem_ends_one_seq, Pattern.mem_ends_many, Bool.or_eq_true, beq_iff_eq]
  constructor
  · rintro ⟨sign, _, hrest, hsign, c, _, rfl, hc, run, rfl, hpast, hrun⟩
    exact ⟨sign, c :: run, hrest, by simpa using hpast, hsign, List.cons_ne_nil _ _,
      List.forall_mem_cons.mpr ⟨hc, hrun⟩⟩
  · rintro ⟨sign, stretch, hrest, hpast, hsign, hne, hstretch⟩
    obtain ⟨c, run, rfl⟩ := List.exists_cons_of_ne_nil hne
    obtain ⟨hc, hrun⟩ := List.forall_mem_cons.mp hstretch
    exact ⟨sign, _, hrest, hsign, c, _, rfl, hc, run, rfl, by simpa using hpast, hrun⟩

/-- The farthest end of a suffix comes first. -/
theorem pairwise_ends_suffix (s : Spot) : (suffix.ends s).Pairwise fun m m' => m'.Before m :=
  Pattern.pairwise_ends_one_seq (Pattern.pairwise_ends_one_seq (Pattern.pairwise_ends_many isSuffixChar)) s

/-- The place after an extension. -/
def Extension.stop {after : List Char} (x : Extension after) (past : List Char) : Spot :=
  ⟨x.stretch.reverse ++ x.sign :: past, x.rest⟩

theorem head?_reverse_append {stretch : List Char} (hne : stretch ≠ []) (past : List Char) :
    (stretch.reverse ++ past).head? = stretch.getLast? := by
  rw [List.head?_append, List.head?_reverse, Option.or_of_isSome (by simpa using hne)]

/-- The ends of a suffix at a word boundary are the extensions. -/
theorem mem_ends_suffix_iff_extension :
    (e ∈ suffix.ends s ∧ e.atBoundary = true) ↔ ∃ x : Extension s.rest, e = x.stop s.past := by
  rw [mem_ends_suffix]
  constructor
  · rintro ⟨⟨sign, stretch, hrest, hpast, hsign, hne, hstretch⟩, hboundary⟩
    rw [Spot.atBoundary, hpast, head?_reverse_append hne, bne_iff_ne] at hboundary
    exact ⟨⟨sign, stretch, e.rest, hrest, hsign, hne, hstretch, hboundary⟩, Spot.eq_mk_iff.mpr ⟨hpast, rfl⟩⟩
  · rintro ⟨x, rfl⟩
    refine ⟨⟨x.sign, x.stretch, x.after_eq, rfl, x.isSign, x.ne_nil, x.isSuffix⟩, ?_⟩
    rw [Spot.atBoundary, Extension.stop, head?_reverse_append x.ne_nil, bne_iff_ne]
    exact x.atBoundary

theorem Extension.before_stop_iff {after : List Char} (x y : Extension after) (past : List Char) :
    (x.stop past).Before (y.stop past) ↔ x.stretch.length < y.stretch.length := by
  simp [Spot.Before, stop]

/-- The place itself if it is at a word boundary. -/
def atBoundary? (s : Spot) : Option Spot := if s.atBoundary then some s else none

theorem atBoundary?_eq_some : atBoundary? s = some e ↔ s.atBoundary = true ∧ s = e := by
  simp [atBoundary?]

theorem findSome?_ends_suffix :
    (suffix.ends s).findSome? atBoundary? = some e ↔ ∃ x : Extension s.rest, x.IsLongest ∧ e = x.stop s.past := by
  rw [findSome?_of_pairwise (pairwise_ends_suffix s) fun x y => Spot.Before.asymm y x]
  simp only [atBoundary?_eq_some]
  constructor
  · rintro ⟨m, hm, ⟨hboundary, rfl⟩, hfarthest⟩
    obtain ⟨x, rfl⟩ := mem_ends_suffix_iff_extension.mp ⟨hm, hboundary⟩
    refine ⟨x, fun other => Nat.le_of_not_lt fun hlonger => ?_, rfl⟩
    obtain ⟨hmem, hother⟩ := mem_ends_suffix_iff_extension.mpr ⟨other, rfl⟩
    have hnone := hfarthest _ hmem ((x.before_stop_iff other s.past).mpr hlonger)
    simp [atBoundary?, hother] at hnone
  · rintro ⟨x, hlongest, rfl⟩
    obtain ⟨hmem, hboundary⟩ := mem_ends_suffix_iff_extension.mpr ⟨x, rfl⟩
    refine ⟨x.stop s.past, hmem, ⟨hboundary, rfl⟩, fun m hm hfarther => ?_⟩
    rw [atBoundary?, if_neg]
    intro hother
    obtain ⟨other, rfl⟩ := mem_ends_suffix_iff_extension.mp ⟨hm, hother⟩
    have hlonger := (x.before_stop_iff other s.past).mp hfarther
    have hmost := hlongest other
    omega

theorem findSome?_ends_suffix_eq_none :
    (suffix.ends s).findSome? atBoundary? = none ↔ ¬ Nonempty (Extension s.rest) := by
  rw [List.findSome?_eq_none_iff]
  constructor
  · rintro hnone ⟨x⟩
    obtain ⟨hmem, hboundary⟩ := mem_ends_suffix_iff_extension.mpr ⟨x, rfl⟩
    have hx := hnone _ hmem
    simp [atBoundary?, hboundary] at hx
  · intro hnone m hm
    rw [atBoundary?, if_neg]
    intro hboundary
    obtain ⟨x, -⟩ := mem_ends_suffix_iff_extension.mp ⟨hm, hboundary⟩
    exact hnone ⟨x⟩

theorem endsWord_of_extension {after : List Char} (x : Extension after) : EndsWord after := by
  intro c hc
  rw [x.after_eq] at hc
  obtain rfl := Option.some.inj hc
  rcases x.isSign with h | h
  · rw [h]
    decide
  · rw [h]
    decide

/-- After a number, the longest extension is taken where there is one. -/
theorem head?_ends_suffix_boundary {d : Char} (hd : isDigit d = true) {past rest : List Char} :
    ((Pattern.seq (.optional suffix) (.seq .boundary .empty)).ends ⟨d :: past, rest⟩).head? = some e ↔
      EndsWord rest ∧ ∃ extra left, Extends rest extra ∧ rest = extra ++ left ∧
        e = ⟨extra.reverse ++ d :: past, left⟩ := by
  have hends : ((Pattern.seq (.optional suffix) (.seq .boundary .empty)).ends ⟨d :: past, rest⟩).head? =
      ((suffix.ends ⟨d :: past, rest⟩).findSome? atBoundary?).or (atBoundary? ⟨d :: past, rest⟩) := by
    rw [Pattern.head?_ends_seq, Pattern.ends, List.findSome?_append]
    simp only [head?_ends_boundary, List.findSome?_singleton]
    rfl
  rw [hends, Option.or_eq_some_iff, findSome?_ends_suffix, findSome?_ends_suffix_eq_none, atBoundary?_eq_some,
    atBoundary_iff_endsWord hd]
  constructor
  · rintro (⟨x, hlongest, rfl⟩ | ⟨hnone, hword, rfl⟩)
    · exact ⟨endsWord_of_extension x, x.sign :: x.stretch, x.rest, .inl ⟨x, hlongest, rfl⟩, x.after_eq,
        by simp [Extension.stop]⟩
    · exact ⟨hword, [], rest, .inr ⟨hnone, rfl⟩, rfl, rfl⟩
  · rintro ⟨hword, extra, left, ⟨x, hlongest, rfl⟩ | ⟨hnone, rfl⟩, hrest, rfl⟩
    · refine .inl ⟨x, hlongest, ?_⟩
      have hleft : left = x.rest := List.append_cancel_left (hrest.symm.trans x.after_eq)
      simp [Extension.stop, hleft]
    · exact .inr ⟨hnone, hword, by simpa using hrest⟩

theorem closesNumber_suffix : ClosesNumber (.seq (.optional suffix) (.seq .boundary .empty)) := by
  intro d past rest hd
  rw [Option.isSome_iff_exists]
  simp only [head?_ends_suffix_boundary hd]
  constructor
  · rintro ⟨e, hword, -⟩
    exact hword
  · intro hword
    cases hfound : (suffix.ends ⟨d :: past, rest⟩).findSome? atBoundary? with
    | none => exact ⟨_, hword, [], rest, .inr ⟨findSome?_ends_suffix_eq_none.mp hfound, rfl⟩, rfl, rfl⟩
    | some e =>
      obtain ⟨x, hlongest, -⟩ := findSome?_ends_suffix.mp hfound
      exact ⟨_, hword, _, x.rest, .inl ⟨x, hlongest, rfl⟩, x.after_eq, rfl⟩

end

/-! ## What the searches find -/

section

variable {tail : Pattern} {n : Nat} {b e : Spot}

/-- A number of `n + 1` parts that stands by itself, and what follows it. -/
def numberPattern (n : Nat) (tail : Pattern) : Pattern := .seq .boundary (lead n (.seq digits tail))

theorem ends_boundary_seq (q : Pattern) (s : Spot) :
    (Pattern.seq .boundary q).ends s = if s.atBoundary then q.ends s else [] := by
  change (if s.atBoundary then [s] else []).flatMap _ = _
  split
  · exact List.flatMap_singleton _ _
  · rfl

theorem atBoundary_iff_of_digit {d : Char} (hd : isDigit d = true) {past rest : List Char} :
    (⟨past, d :: rest⟩ : Spot).atBoundary = true ↔ ∀ c ∈ past.head?, isWord c = false := by
  cases past with
  | nil => simp [Spot.atBoundary, isWord_of_isDigit hd]
  | cons c past => simp [Spot.atBoundary, isWord_of_isDigit hd]

/-- The pattern of a number is met exactly at the starts. -/
theorem met_iff_start (htail : ClosesNumber tail) :
    (b ∈ Spot.all text ∧ ((numberPattern n tail).ends b).head? = some e) ↔
      ∃ s : Start (n + 1) text, b = s.opening ∧ (tail.ends s.closing).head? = some e := by
  rw [Spot.mem_all, numberPattern, ends_boundary_seq]
  constructor
  · rintro ⟨htext, hfound⟩
    cases hboundary : b.atBoundary with
    | false => simp [hboundary] at hfound
    | true =>
      rw [hboundary, if_pos rfl, head?_ends_lead htail] at hfound
      obtain ⟨runs, rest, hlength, hruns, hrest, hword, hfound⟩ := hfound
      have hne : runs ≠ [] := List.ne_nil_of_length_eq_add_one hlength
      obtain ⟨d, more, hd, hdigit⟩ := exists_first_digit hne hruns
      have hopens : ∀ c ∈ b.past.head?, isWord c = false := by
        rw [Spot.eq_mk_iff.mpr ⟨rfl, hrest⟩, hd, List.cons_append, atBoundary_iff_of_digit hdigit] at hboundary
        exact hboundary
      refine ⟨⟨b.past.reverse, runs, rest, by rw [← hrest, htext], hlength, hruns, ?_, hword⟩, ?_, ?_⟩
      · rwa [List.getLast?_reverse]
      · exact Spot.eq_mk_iff.mpr ⟨by simp, hrest⟩
      · simpa [Start.closing, Start.number] using hfound
  · rintro ⟨s, rfl, hfound⟩
    refine ⟨by simpa [Start.opening, Start.number] using s.text_eq, ?_⟩
    have hboundary : s.opening.atBoundary = true := by
      obtain ⟨d, rest, hd, hdigit⟩ := s.opening_eq
      rw [hd, atBoundary_iff_of_digit hdigit, List.head?_reverse]
      exact s.opens
    rw [hboundary, if_pos rfl, head?_ends_lead htail]
    exact ⟨s.runs, s.after, s.length_runs, s.isRun, rfl, s.closes, hfound⟩

theorem Start.exists_end (htail : ClosesNumber tail) (s : Start (n + 1) text) :
    ∃ e, (tail.ends s.closing).head? = some e := by
  obtain ⟨d, past, hd, hdigit⟩ := s.closing_eq
  rw [← Option.isSome_iff_exists, hd, htail d past s.after hdigit]
  exact s.closes

theorem Start.before_iff {k : Nat} (s t : Start k text) :
    s.opening.Before t.opening ↔ s.before.length < t.before.length := by
  simp [Spot.Before, opening]

theorem find?_numberPattern (htail : ClosesNumber tail) :
    (numberPattern n tail).find? text = some (b, e) ↔
      ∃ s : Start (n + 1) text, s.IsFirst ∧ b = s.opening ∧ (tail.ends s.closing).head? = some e := by
  rw [Pattern.find?, findSome?_of_pairwise (Spot.pairwise_all text) Spot.Before.asymm]
  simp only [Option.map_eq_some_iff, Prod.mk.injEq, Option.map_eq_none_iff]
  constructor
  · rintro ⟨m, hm, ⟨stop, hstop, rfl, rfl⟩, hleftmost⟩
    obtain ⟨s, rfl, hfound⟩ := (met_iff_start htail).mp ⟨hm, hstop⟩
    refine ⟨s, fun other => Nat.le_of_not_lt fun hleft => ?_, rfl, hfound⟩
    obtain ⟨e', he'⟩ := other.exists_end htail
    obtain ⟨hmem, hmet⟩ := (met_iff_start htail).mpr ⟨other, rfl, he'⟩
    have hnone := hleftmost _ hmem ((other.before_iff s).mpr hleft)
    rw [hnone] at hmet
    cases hmet
  · rintro ⟨s, hfirst, rfl, hfound⟩
    obtain ⟨hmem, hmet⟩ := (met_iff_start htail).mpr ⟨s, rfl, hfound⟩
    refine ⟨s.opening, hmem, ⟨e, hmet, rfl, rfl⟩, fun m hm hleft => ?_⟩
    cases hfound' : ((numberPattern n tail).ends m).head? with
    | none => rfl
    | some e' =>
      obtain ⟨other, rfl, -⟩ := (met_iff_start htail).mp ⟨hm, hfound'⟩
      have hless := (other.before_iff s).mp hleft
      have hmost := hfirst other
      omega

theorem find?_numberPattern_eq_none (htail : ClosesNumber tail) :
    (numberPattern n tail).find? text = none ↔ ¬ Nonempty (Start (n + 1) text) := by
  rw [Pattern.find?, List.findSome?_eq_none_iff]
  simp only [Option.map_eq_none_iff]
  constructor
  · rintro hnone ⟨s⟩
    obtain ⟨e, he⟩ := s.exists_end htail
    obtain ⟨hmem, hmet⟩ := (met_iff_start htail).mpr ⟨s, rfl, he⟩
    rw [hnone _ hmem] at hmet
    cases hmet
  · intro hnone m hm
    cases hfound : ((numberPattern n tail).ends m).head? with
    | none => rfl
    | some e =>
      obtain ⟨s, -⟩ := (met_iff_start htail).mp ⟨hm, hfound⟩
      exact absurd ⟨s⟩ hnone

theorem triple_eq : triple = numberPattern 2 (.seq (.optional suffix) (.seq .boundary .empty)) := rfl

theorem pair_eq : pair = numberPattern 1 (.seq .boundary .empty) := rfl

theorem find?_triple_eq_some_iff :
    triple.find? text = some (b, e) ↔
      ∃ s : Start 3 text, s.IsFirst ∧ b = s.opening ∧ ∃ extra left, Extends s.after extra ∧ s.after = extra ++ left ∧
        e = ⟨extra.reverse ++ s.closing.past, left⟩ := by
  rw [triple_eq, find?_numberPattern closesNumber_suffix]
  refine exists_congr fun s => and_congr_right fun _ => and_congr_right fun _ => ?_
  obtain ⟨d, past, hd, hdigit⟩ := s.closing_eq
  rw [hd, head?_ends_suffix_boundary hdigit]
  exact ⟨fun h => h.2, fun h => ⟨s.closes, h⟩⟩

theorem find?_pair_eq_some_iff :
    pair.find? text = some (b, e) ↔ ∃ s : Start 2 text, s.IsFirst ∧ b = s.opening ∧ e = s.closing := by
  rw [pair_eq, find?_numberPattern closesNumber_boundary]
  refine exists_congr fun s => and_congr_right fun _ => and_congr_right fun _ => ?_
  obtain ⟨d, past, hd, hdigit⟩ := s.closing_eq
  have hboundary : s.closing.atBoundary = true := by
    rw [hd, atBoundary_iff_endsWord hdigit]
    exact s.closes
  rw [head?_ends_boundary, if_pos hboundary, Option.some_inj, eq_comm]

theorem find?_triple_eq_none_iff : triple.find? text = none ↔ ¬ Nonempty (Start 3 text) := by
  rw [triple_eq, find?_numberPattern_eq_none closesNumber_suffix]

theorem find?_pair_eq_none_iff : pair.find? text = none ↔ ¬ Nonempty (Start 2 text) := by
  rw [pair_eq, find?_numberPattern_eq_none closesNumber_boundary]

end

/-! ## Parts more and less -/

namespace Start

variable {k : Nat}

theorem dotted_concat {runs : List (List Char)} (hne : runs ≠ []) (last : List Char) :
    dotted (runs ++ [last]) = dotted runs ++ '.' :: last := by
  induction runs with
  | nil => exact absurd rfl hne
  | cons run runs ih =>
    by_cases hlast : runs = []
    · simp [hlast, dotted]
    · rw [List.cons_append, dotted_cons (by simp), ih hlast, dotted_cons hlast]
      simp

/-- From the same place a number is also read with one part less. -/
theorem exists_shorter (s : Start (k + 2) text) : ∃ t : Start (k + 1) text, t.before = s.before := by
  obtain ⟨runs, last, hruns⟩ : ∃ runs last, s.runs = runs ++ [last] :=
    ⟨_, _, (List.dropLast_concat_getLast s.runs_ne_nil).symm⟩
  have hlength : runs.length = k + 1 := by simpa [hruns] using s.length_runs
  have hne : runs ≠ [] := List.ne_nil_of_length_eq_add_one hlength
  refine ⟨⟨s.before, runs, '.' :: (last ++ s.after), s.text_eq.trans ?_, hlength, fun run hrun => ?_, s.opens, ?_⟩, rfl⟩
  · simp [hruns, dotted_concat hne]
  · exact s.isRun run (hruns ▸ List.mem_append_left _ hrun)
  · intro c hc
    obtain rfl := Option.some.inj hc
    exact not_isWord_dot

/-- A run of digits and a point before a number make a number with one part more. -/
theorem exists_longer (s : Start (k + 1) text) {before run : List Char} (hbefore : s.before = before ++ (run ++ ['.']))
    (hrun : IsRun run) (hopens : ∀ c ∈ before.getLast?, isWord c = false) :
    ∃ t : Start (k + 2) text, t.before = before := by
  refine ⟨⟨before, run :: s.runs, s.after, s.text_eq.trans ?_, by simp [s.length_runs],
    List.forall_mem_cons.mpr ⟨hrun, s.isRun⟩, hopens, s.closes⟩, rfl⟩
  simp [hbefore, dotted_cons s.runs_ne_nil]

end Start

/-! ## The version of a text -/

/-- The place before the version that a text names, and the place after it. -/
def found? (text : List Char) : Option (Spot × Spot) := (triple.find? text).or (pair.find? text)

theorem ofText?_eq_map_found? (text : String) :
    ofText? text = (found? text.toList).map fun (b, e) => String.ofList (b.upTo e) := by
  rw [ofText?, occurrence?, occurrence?, found?]
  cases triple.find? text.toList with
  | none => simp [Function.comp_def]
  | some place => simp

theorem found?_eq_none_iff : found? text = none ↔ ¬ Nonempty (Start 2 text) := by
  rw [found?, Option.or_eq_none_iff, find?_triple_eq_none_iff, find?_pair_eq_none_iff]
  refine ⟨fun h => h.2, fun h => ⟨?_, h⟩⟩
  rintro ⟨s⟩
  obtain ⟨t, -⟩ := s.exists_shorter
  exact h ⟨t⟩

theorem Start.upTo_opening {k : Nat} (s : Start k text) {extra left : List Char} (hafter : s.after = extra ++ left)
    (past : List Char) : s.opening.upTo ⟨past, left⟩ = s.number ++ extra := by
  rw [Spot.upTo, opening, hafter, ← List.append_assoc]
  dsimp only
  rw [List.length_append, Nat.add_sub_cancel, List.take_left]

/-- A number of three parts is read wherever there is one, and a number of two parts otherwise. In both cases the
leftmost place counts. Only a number of three parts is extended, by a sign and the longest stretch of characters that
may follow it and ends at a word boundary. A text without a number of two parts names no version. -/
theorem version_is_read_from_first_start (text : String) :
    (ofText? text = none ↔ ¬ Nonempty (Start 2 text.toList)) ∧
    ∀ version, ofText? text = some version ↔
      (∃ s : Start 3 text.toList, s.IsFirst ∧
        ∃ extra, Extends s.after extra ∧ version = String.ofList (s.number ++ extra)) ∨
      (¬ Nonempty (Start 3 text.toList) ∧
        ∃ s : Start 2 text.toList, s.IsFirst ∧ version = String.ofList s.number) := by
  rw [ofText?_eq_map_found?, Option.map_eq_none_iff, found?_eq_none_iff]
  refine ⟨Iff.rfl, fun version => ?_⟩
  rw [Option.map_eq_some_iff, found?]
  simp only [Option.or_eq_some_iff, find?_triple_eq_none_iff]
  constructor
  · rintro ⟨⟨b, e⟩, hfound | ⟨hnone, hfound⟩, rfl⟩
    · obtain ⟨s, hfirst, rfl, extra, left, hextends, hafter, rfl⟩ := find?_triple_eq_some_iff.mp hfound
      exact .inl ⟨s, hfirst, extra, hextends, by rw [s.upTo_opening hafter]⟩
    · obtain ⟨s, hfirst, rfl, rfl⟩ := find?_pair_eq_some_iff.mp hfound
      exact .inr ⟨hnone, s, hfirst, by rw [Start.closing, s.upTo_opening (List.nil_append _).symm, List.append_nil]⟩
  · rintro (⟨s, hfirst, extra, hextends, rfl⟩ | ⟨hnone, s, hfirst, rfl⟩)
    · obtain ⟨left, hafter⟩ := hextends.exists_left
      refine ⟨(s.opening, ⟨extra.reverse ++ s.closing.past, left⟩), .inl ?_, by rw [s.upTo_opening hafter]⟩
      exact find?_triple_eq_some_iff.mpr ⟨s, hfirst, rfl, extra, left, hextends, hafter, rfl⟩
    · refine ⟨(s.opening, s.closing), .inr ⟨hnone, find?_pair_eq_some_iff.mpr ⟨s, hfirst, rfl, rfl⟩⟩, ?_⟩
      dsimp only
      rw [Start.closing, s.upTo_opening (List.nil_append _).symm, List.append_nil]

end Bringup.Version

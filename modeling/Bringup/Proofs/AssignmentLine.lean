import Bringup.Assignment
import Bringup.Proofs.PatternSearch

/-!
# The line that an assignment replaces

A text may assign to a key in several lines, and with a key that holds blanks even one line can be read in several
ways. The first line counts, and in it the reading with the longest indentation.

* `Line`: a reading of a text as an assignment to a key, cut into its parts.
* `Line.IsFirst`: the reading that counts.
* `assign?_rewrites_first_line`: this is what a new value is written to, and nothing else of the text changes.
-/

namespace Bringup.Assignment

set_option autoImplicit false

open Bringup.Text

variable {text key : List Char}

/-- A place where a text assigns to a key: at the start of a line it reads blanks, the key, blanks and an equals sign.
The old value goes up to the first character of a line break, or to the end of the text. -/
structure Line (text key : List Char) where
  before : List Char
  indent : List Char
  gap : List Char
  old : List Char
  after : List Char
  text_eq : text = before ++ (indent ++ (key ++ (gap ++ '=' :: (old ++ after))))
  starts : ∀ c ∈ before.getLast?, c = '\n'
  blank_indent : ∀ c ∈ indent, isInlineBlank c = true
  blank_gap : ∀ c ∈ gap, isInlineBlank c = true
  inLine_old : ∀ c ∈ old, isInLine c = true
  stops : ∀ c ∈ after.head?, isInLine c = false

namespace Line

/-- No reading starts earlier, and none that starts at the same place has a longer indentation. -/
def IsFirst (l : Line text key) : Prop :=
  ∀ other : Line text key, l.before.length < other.before.length ∨
    (l.before.length = other.before.length ∧ other.indent.length ≤ l.indent.length)

/-- The text with a new value in this place. -/
def assigned (l : Line text key) (value : List Char) : List Char :=
  l.before ++ (l.indent ++ (key ++ ([' ', '=', ' '] ++ (quoteChars value ++ l.after))))

/-! ## Readings and places of the text -/

/-- What follows the indentation. -/
def assignment (l : Line text key) : List Char := key ++ (l.gap ++ '=' :: (l.old ++ l.after))

def start (l : Line text key) : Spot := ⟨l.before.reverse, l.indent ++ l.assignment⟩

def middle (l : Line text key) : Spot := ⟨l.indent.reverse ++ l.before.reverse, l.assignment⟩

def stop (l : Line text key) : Spot :=
  ⟨(key ++ (l.gap ++ '=' :: l.old)).reverse ++ l.middle.past, l.after⟩

theorem upTo_middle (l : Line text key) : l.start.upTo l.middle = l.indent := by
  unfold Spot.upTo start middle
  rw [List.length_append, Nat.add_sub_cancel, List.take_left]

end Line

theorem atLineStart_iff {s : Spot} : s.atLineStart = true ↔ ∀ c ∈ s.past.reverse.getLast?, c = '\n' := by
  rw [List.getLast?_reverse, Spot.atLineStart]
  cases s.past with
  | nil => simp
  | cons c past => simp

theorem ends_indent (s : Spot) : indent.ends s = if s.atLineStart then (Pattern.many isInlineBlank).ends s else [] := by
  change (if s.atLineStart then [s] else []).flatMap _ = _
  split
  · exact List.flatMap_singleton _ _
  · rfl

theorem mem_ends_indent {s m : Spot} :
    m ∈ indent.ends s ↔ (∀ c ∈ s.past.reverse.getLast?, c = '\n') ∧
      ∃ run, s.rest = run ++ m.rest ∧ m.past = run.reverse ++ s.past ∧ ∀ c ∈ run, isInlineBlank c = true := by
  rw [ends_indent, ← atLineStart_iff, ← Pattern.mem_ends_many]
  cases s.atLineStart with
  | true => simp
  | false => simp

theorem pairwise_ends_indent (s : Spot) : (indent.ends s).Pairwise fun m m' => m'.Before m := by
  rw [ends_indent]
  split
  · exact Pattern.pairwise_ends_many _ s
  · exact List.Pairwise.nil

theorem head?_ends_assignTo {m e : Spot} :
    ((assignTo key).ends m).head? = some e ↔
      ∃ gap old, m.rest = key ++ (gap ++ '=' :: (old ++ e.rest)) ∧
        e.past = (key ++ (gap ++ '=' :: old)).reverse ++ m.past ∧ (∀ c ∈ gap, isInlineBlank c = true) ∧
        (∀ c ∈ old, isInLine c = true) ∧ ∀ c ∈ e.rest.head?, isInLine c = false := by
  have hequals : isInlineBlank '=' = false := by decide
  change ((Pattern.seq (.literal key) (.seq (.many isInlineBlank) (.seq (.one (· == '='))
    (.seq (.many isInLine) .empty)))).ends m).head? = some e ↔ _
  simp only [Pattern.head?_ends_literal_seq, Pattern.head?_ends_many_one_seq hequals, Pattern.head?_ends_many_empty]
  constructor
  · rintro ⟨_, hrest, gap, _, rfl, hgap, old, rfl, hpast, hold, hstop⟩
    exact ⟨gap, old, hrest, by simp [hpast], hgap, hold, hstop⟩
  · rintro ⟨gap, old, hrest, hpast, hgap, hold, hstop⟩
    exact ⟨_, hrest, gap, _, rfl, hgap, old, rfl, by simp [hpast], hold, hstop⟩

/-- What a search comes across are the readings. -/
theorem found_iff_line {s m e : Spot} :
    (s ∈ Spot.all text ∧ m ∈ indent.ends s ∧ ((assignTo key).ends m).head? = some e) ↔
      ∃ l : Line text key, s = l.start ∧ m = l.middle ∧ e = l.stop := by
  rw [Spot.mem_all, mem_ends_indent, head?_ends_assignTo]
  constructor
  · rintro ⟨htext, ⟨hstarts, run, hrest, hpast, hrun⟩, gap, old, hassign, hend, hgap, hold, hstops⟩
    rw [hrest, hassign] at htext
    refine ⟨⟨s.past.reverse, run, gap, old, e.rest, htext, hstarts, hrun, hgap, hold, hstops⟩, ?_, ?_, ?_⟩
    · simp [Line.start, Line.assignment, Spot.eq_mk_iff, hrest, hassign]
    · simp [Line.middle, Line.assignment, Spot.eq_mk_iff, hpast, hassign]
    · simp [Line.stop, Line.middle, Spot.eq_mk_iff, hend, hpast]
  · rintro ⟨l, rfl, rfl, rfl⟩
    refine ⟨?_, ⟨?_, l.indent, rfl, rfl, l.blank_indent⟩, l.gap, l.old, rfl, rfl, l.blank_gap, l.inLine_old, l.stops⟩
    · rw [Line.start, List.reverse_reverse]
      exact l.text_eq
    · rw [Line.start, List.reverse_reverse]
      exact l.starts

/-! ## The first reading -/

/-- The search from one place on: none if no reading starts there, and else one with the longest indentation. -/
def readAt (key : List Char) (s : Spot) : Option (Spot × Spot × Spot) :=
  (indent.ends s).findSome? fun m => ((assignTo key).ends m).head?.map fun e => (s, m, e)

theorem readAt_eq_none {s : Spot} :
    readAt key s = none ↔ ∀ m ∈ indent.ends s, ((assignTo key).ends m).head? = none := by
  unfold readAt
  simp

theorem readAt_eq_some {s s' m e : Spot} :
    readAt key s = some (s', m, e) ↔ s' = s ∧ m ∈ indent.ends s ∧ ((assignTo key).ends m).head? = some e ∧
      ∀ m' ∈ indent.ends s, m.Before m' → ((assignTo key).ends m').head? = none := by
  unfold readAt
  rw [findSome?_of_pairwise (pairwise_ends_indent s) fun x y => Spot.Before.asymm y x]
  simp only [Option.map_eq_some_iff, Option.map_eq_none_iff, Prod.mk.injEq]
  constructor
  · rintro ⟨m', hm, ⟨e', he, rfl, rfl, rfl⟩, hlonger⟩
    exact ⟨rfl, hm, he, hlonger⟩
  · rintro ⟨rfl, hm, he, hlonger⟩
    exact ⟨m, hm, ⟨e, he, rfl, rfl, rfl⟩, hlonger⟩

theorem Line.start_eq {l other : Line text key} (h : l.before.length = other.before.length) :
    other.start = l.start := by
  have htext := other.text_eq.symm.trans l.text_eq
  obtain ⟨hbefore, hrest⟩ := List.append_inj htext h.symm
  rw [Spot.eq_mk_iff]
  exact ⟨congrArg List.reverse hbefore, hrest⟩

theorem findSplit?_eq_some_iff {s m e : Spot} :
    Pattern.findSplit? indent (assignTo key) text = some (s, m, e) ↔
      ∃ l : Line text key, l.IsFirst ∧ s = l.start ∧ m = l.middle ∧ e = l.stop := by
  have hbefore : ∀ l other : Line text key,
      other.start.Before l.start ↔ other.before.length < l.before.length := by
    intro l other
    simp [Spot.Before, Line.start]
  have hindent : ∀ l other : Line text key, l.before.length = other.before.length →
      (l.middle.Before other.middle ↔ l.indent.length < other.indent.length) := by
    intro l other hlength
    simp only [Spot.Before, Line.middle, List.length_append, List.length_reverse]
    omega
  change (Spot.all text).findSome? (readAt key) = some (s, m, e) ↔ _
  rw [findSome?_of_pairwise (Spot.pairwise_all text) Spot.Before.asymm]
  constructor
  · rintro ⟨t, ht, hread, hnone⟩
    obtain ⟨rfl, hm, he, hshorter⟩ := readAt_eq_some.mp hread
    obtain ⟨l, rfl, rfl, rfl⟩ := found_iff_line.mp ⟨ht, hm, he⟩
    refine ⟨l, fun other => ?_, rfl, rfl, rfl⟩
    obtain ⟨hstart, hmiddle, hstop⟩ := found_iff_line.mpr ⟨other, rfl, rfl, rfl⟩
    rcases Nat.lt_trichotomy l.before.length other.before.length with hlt | heq | hgt
    · exact .inl hlt
    · refine .inr ⟨heq, Nat.le_of_not_lt fun hlonger => ?_⟩
      rw [Line.start_eq heq] at hmiddle
      rw [hshorter _ hmiddle ((hindent l other heq).mpr hlonger)] at hstop
      cases hstop
    · have hearlier := readAt_eq_none.mp (hnone _ hstart ((hbefore l other).mpr hgt)) _ hmiddle
      rw [hearlier] at hstop
      cases hstop
  · rintro ⟨l, hfirst, rfl, rfl, rfl⟩
    obtain ⟨hstart, hmiddle, hstop⟩ := found_iff_line.mpr ⟨l, rfl, rfl, rfl⟩
    refine ⟨l.start, hstart, readAt_eq_some.mpr ⟨rfl, hmiddle, hstop, ?_⟩, ?_⟩
    · intro m' hm' hlonger
      cases hread : ((assignTo key).ends m').head? with
      | none => rfl
      | some e =>
        obtain ⟨other, heq, rfl, _⟩ := found_iff_line.mp ⟨hstart, hm', hread⟩
        have hlength : l.before.length = other.before.length := by
          simpa [Line.start] using congrArg (fun s : Spot => s.past.length) heq
        have hmost := hfirst other
        have hless := (hindent l other hlength).mp hlonger
        omega
    · intro t ht hearlier
      refine readAt_eq_none.mpr fun m' hm' => ?_
      cases hread : ((assignTo key).ends m').head? with
      | none => rfl
      | some e =>
        obtain ⟨other, rfl, rfl, _⟩ := found_iff_line.mp ⟨ht, hm', hread⟩
        have hmost := hfirst other
        have hless := (hbefore l other).mp hearlier
        omega

theorem assignChars?_eq_some_iff {value result : List Char} :
    assignChars? text key value = some result ↔ ∃ l : Line text key, l.IsFirst ∧ result = l.assigned value := by
  have hresult : ∀ l : Line text key, l.start.past.reverse ++ l.start.upTo l.middle ++ key ++ [' ', '=', ' '] ++
      quoteChars value ++ l.stop.rest = l.assigned value := by
    intro l
    rw [Line.upTo_middle]
    simp [Line.assigned, Line.start, Line.stop]
  unfold assignChars?
  rw [Option.map_eq_some_iff]
  constructor
  · rintro ⟨⟨s, m, e⟩, hfound, rfl⟩
    obtain ⟨l, hfirst, rfl, rfl, rfl⟩ := findSplit?_eq_some_iff.mp hfound
    exact ⟨l, hfirst, hresult l⟩
  · rintro ⟨l, hfirst, rfl⟩
    exact ⟨(l.start, l.middle, l.stop), findSplit?_eq_some_iff.mpr ⟨l, hfirst, rfl, rfl, rfl⟩, hresult l⟩

theorem assignChars?_eq_none_iff {value : List Char} :
    assignChars? text key value = none ↔ ¬ Nonempty (Line text key) := by
  unfold assignChars?
  rw [Option.map_eq_none_iff]
  change (Spot.all text).findSome? (readAt key) = none ↔ _
  simp only [List.findSome?_eq_none_iff, readAt_eq_none]
  constructor
  · rintro hnone ⟨l⟩
    obtain ⟨hstart, hmiddle, hstop⟩ := found_iff_line.mpr ⟨l, rfl, rfl, rfl⟩
    rw [hnone _ hstart _ hmiddle] at hstop
    cases hstop
  · intro hempty s hs m hm
    cases hread : ((assignTo key).ends m).head? with
    | none => rfl
    | some e =>
      obtain ⟨l, _⟩ := found_iff_line.mp ⟨hs, hm, hread⟩
      exact absurd ⟨l⟩ hempty

/-- A text in which an equals sign follows is read up to the end of the line. -/
def Line.upToBreak (before indent gap tail : List Char)
    (text_eq : text = before ++ (indent ++ (key ++ (gap ++ '=' :: tail)))) (starts : ∀ c ∈ before.getLast?, c = '\n')
    (blank_indent : ∀ c ∈ indent, isInlineBlank c = true) (blank_gap : ∀ c ∈ gap, isInlineBlank c = true) :
    Line text key where
  before := before
  indent := indent
  gap := gap
  old := tail.takeWhile isInLine
  after := tail.dropWhile isInLine
  text_eq := by rw [List.takeWhile_append_dropWhile, text_eq]
  starts := starts
  blank_indent := blank_indent
  blank_gap := blank_gap
  inLine_old := List.all_eq_true.mp List.all_takeWhile
  stops := fun c hc => by
    have hall := List.head?_dropWhile_not isInLine tail
    rw [Option.mem_def.mp hc] at hall
    simpa using hall

/-- An assignment is found exactly if, from the start of some line, the text reads blanks, the key, blanks and an equals
sign. Then the first such line counts, with its longest indentation. What stands before it, its indentation and all from
its line break on stay as they are, and in between the key is given the new value. -/
theorem assign?_rewrites_first_line (content key value : String) :
    (assign? content key value = none ↔ ¬ ∃ before indent gap tail,
      content.toList = before ++ (indent ++ (key.toList ++ (gap ++ '=' :: tail))) ∧ (∀ c ∈ before.getLast?, c = '\n') ∧
      (∀ c ∈ indent, isInlineBlank c = true) ∧ ∀ c ∈ gap, isInlineBlank c = true) ∧
    ∀ result, assign? content key value = some result ↔
      ∃ l : Line content.toList key.toList, l.IsFirst ∧ result = String.ofList (l.assigned value.toList) := by
  unfold assign?
  rw [Option.map_eq_none_iff, assignChars?_eq_none_iff]
  refine ⟨not_congr ⟨?_, ?_⟩, fun result => ?_⟩
  · rintro ⟨l⟩
    exact ⟨l.before, l.indent, l.gap, l.old ++ l.after, l.text_eq, l.starts, l.blank_indent, l.blank_gap⟩
  · rintro ⟨before, indent, gap, tail, htext, hstarts, hindent, hgap⟩
    exact ⟨.upToBreak before indent gap tail htext hstarts hindent hgap⟩
  · simp only [Option.map_eq_some_iff, assignChars?_eq_some_iff]
    constructor
    · rintro ⟨_, ⟨l, hfirst, rfl⟩, rfl⟩
      exact ⟨l, hfirst, rfl⟩
    · rintro ⟨l, hfirst, rfl⟩
      exact ⟨_, ⟨l, hfirst, rfl⟩, rfl⟩

example : assign? "axb = 1\r\n\ta.b\t= 2\r\na.b = 3" "a.b" "v" = some "axb = 1\r\n\ta.b = 'v'\r\na.b = 3" := by
  decide +kernel

end Bringup.Assignment

import Bringup.Proofs.AssignmentLine

/-!
# One value after another

A second value replaces the first as if that had never been written, unless the first breaks the line or the key could
be taken for the space that is put behind it.

* `Line.rewritten`: the place of an assignment in the text with the new value.
* `Line.IsFirst.rewritten`: it is still the one that counts.
* `lastWriteWins_iff`: for which keys and values the last one wins.
-/

namespace Bringup.Assignment

set_option autoImplicit false

open Bringup.Text

variable {text key value : List Char}

/-! ## Characters of a value -/

theorem isInLine_of_isInlineBlank {c : Char} (h : isInlineBlank c = true) : isInLine c = true := by
  simp only [isInlineBlank, Bool.or_eq_true, beq_iff_eq] at h
  rcases h with rfl | rfl <;> decide

theorem mem_quoteChars {c : Char} (h : c ∈ value) : c ∈ quoteChars value := by
  have hescaped : c ∈ escaped c := by
    unfold escaped
    split <;> simp
  unfold quoteChars
  split
  · exact List.mem_cons_of_mem _ (List.mem_append_left _ (List.mem_flatMap.mpr ⟨c, h, hescaped⟩))
  · exact List.mem_cons_of_mem _ (List.mem_append_left _ h)

theorem isInLine_of_mem_quoteChars (hvalue : ∀ c ∈ value, isInLine c = true) {c : Char} (h : c ∈ quoteChars value) :
    isInLine c = true := by
  have hmarks : ∀ c ∈ ['"', '\'', '\\'], isInLine c = true := List.all_eq_true.mp (by decide)
  have hescaped : ∀ d, ∀ c ∈ escaped d, c = '\\' ∨ c = d := by
    intro d c hc
    unfold escaped at hc
    split at hc <;> simp_all
  unfold quoteChars at h
  split at h
  · simp only [List.mem_cons, List.mem_append, List.mem_flatMap, List.not_mem_nil, or_false] at h
    rcases h with rfl | ⟨d, hd, hc⟩ | rfl
    · exact hmarks _ (by simp)
    · rcases hescaped d c hc with rfl | rfl
      · exact hmarks _ (by simp)
      · exact hvalue c hd
    · exact hmarks _ (by simp)
  · simp only [List.mem_cons, List.mem_append, List.not_mem_nil, or_false] at h
    rcases h with rfl | hc | rfl
    · exact hmarks _ (by simp)
    · exact hvalue c hc
    · exact hmarks _ (by simp)

/-! ## The place with its new value -/

/-- The place in the text that has the new value. -/
def Line.rewritten (l : Line text key) (hvalue : ∀ c ∈ value, isInLine c = true) : Line (l.assigned value) key where
  before := l.before
  indent := l.indent
  gap := [' ']
  old := ' ' :: quoteChars value
  after := l.after
  text_eq := rfl
  starts := l.starts
  blank_indent := l.blank_indent
  blank_gap := List.all_eq_true.mp (by decide)
  inLine_old := List.forall_mem_cons.mpr ⟨by decide, fun _ hc => isInLine_of_mem_quoteChars hvalue hc⟩
  stops := l.stops

/-- Blanks and an equals sign are read in one text if they are in another that begins alike, up to a place where both
go on with blanks and an equals sign. -/
theorem reads_equals {common rest gap gap' tail' : List Char} (tail : List Char)
    (hgap : ∀ c ∈ gap, isInlineBlank c = true) (hgap' : ∀ c ∈ gap', isInlineBlank c = true)
    (h : common ++ rest = gap' ++ '=' :: tail') :
    ∃ gap'' tail'', common ++ (gap ++ '=' :: tail) = gap'' ++ '=' :: tail'' ∧ ∀ c ∈ gap'', isInlineBlank c = true := by
  induction common generalizing gap' with
  | nil => exact ⟨gap, tail, rfl, hgap⟩
  | cons c common ih =>
    cases gap' with
    | nil =>
      obtain ⟨rfl, _⟩ := List.cons_eq_cons.mp h
      exact ⟨[], _, rfl, by simp⟩
    | cons d gap' =>
      obtain ⟨rfl, htail⟩ := List.cons_eq_cons.mp h
      obtain ⟨hc, hgap'⟩ := List.forall_mem_cons.mp hgap'
      obtain ⟨gap'', tail'', heq, hgap''⟩ := ih hgap' htail
      exact ⟨c :: gap'', tail'', congrArg (c :: ·) heq, List.forall_mem_cons.mpr ⟨hc, hgap''⟩⟩

/-- A reading that starts before a line does not reach over the line break with its indentation. -/
theorem Line.indent_in_line (l : Line text key) {before rest : List Char} (htext : text = before ++ rest)
    (hbreak : ∀ c ∈ before.getLast?, c = '\n') (hearlier : l.before.length < before.length) :
    ∃ more, before = l.before ++ (l.indent ++ more) := by
  have hparts : l.before ++ (l.indent ++ l.assignment) = before ++ rest := l.text_eq.symm.trans htext
  obtain ⟨line, rfl⟩ : l.before <+: before :=
    List.prefix_of_prefix_length_le ⟨_, hparts⟩ (List.prefix_append _ _) (Nat.le_of_lt hearlier)
  rw [List.append_assoc, List.append_cancel_left_eq] at hparts
  rcases List.prefix_or_prefix_of_prefix ⟨_, hparts⟩ (List.prefix_append line rest) with hshort | hlong
  · obtain ⟨more, hmore⟩ := hshort
    exact ⟨more, by rw [hmore]⟩
  · have hne : line ≠ [] := by
      rintro rfl
      simp at hearlier
    have hlast : (l.before ++ line).getLast? = some (line.getLast hne) := by
      simp [List.getLast?_append, List.getLast?_eq_some_getLast hne]
    have hmem : line.getLast hne ∈ l.indent := hlong.subset (List.getLast_mem hne)
    rw [hbreak _ hlast] at hmem
    cases l.blank_indent _ hmem

/-- A new value makes no reading before its place that was not there already. -/
theorem Line.not_earlier {l : Line text key} (hfirst : l.IsFirst) (other : Line (l.assigned value) key) :
    ¬ other.before.length < l.before.length := by
  intro hearlier
  obtain ⟨line, hline⟩ := other.indent_in_line rfl l.starts hearlier
  -- Up to the end of the key both texts are the same, and there both go on with blanks and an equals sign.
  let shared := line ++ (l.indent ++ key)
  have hnew : shared ++ ([' ', '=', ' '] ++ (quoteChars value ++ l.after)) = other.assignment := by
    have htext := other.text_eq
    simp only [Line.assigned, hline, List.append_assoc, List.append_cancel_left_eq] at htext
    simpa [shared, Line.assignment] using htext
  obtain ⟨common, hcommon⟩ : key <+: shared := by
    refine List.prefix_of_prefix_length_le ⟨_, rfl⟩ ⟨_, hnew⟩ ?_
    simp only [shared, List.length_append]
    omega
  rw [← hcommon, Line.assignment, List.append_assoc, List.append_cancel_left_eq] at hnew
  obtain ⟨gap, tail, hgap, hblank⟩ := reads_equals (l.old ++ l.after) l.blank_gap other.blank_gap hnew
  have hold : text = other.before ++ (other.indent ++ (key ++ (gap ++ '=' :: tail))) := by
    calc text = l.before ++ (l.indent ++ (key ++ (l.gap ++ '=' :: (l.old ++ l.after)))) := l.text_eq
      _ = other.before ++ (other.indent ++ (shared ++ (l.gap ++ '=' :: (l.old ++ l.after)))) := by simp [hline, shared]
      _ = other.before ++ (other.indent ++ (key ++ (gap ++ '=' :: tail))) := by
        rw [← hcommon, List.append_assoc, hgap]
  have hmost := hfirst (.upToBreak other.before other.indent gap tail hold other.starts other.blank_indent hblank)
  simp only [Line.upToBreak] at hmost
  omega

/-! ## The longest indentation -/

theorem all_eq_of_shift {xs : List Char} {a b : Char} (h : xs ++ [a] = b :: xs) : ∀ c ∈ xs, c = a := by
  induction xs generalizing b with
  | nil => simp
  | cons c xs ih =>
    obtain ⟨rfl, htail⟩ := List.cons_eq_cons.mp h
    have hrest := ih htail
    refine List.forall_mem_cons.mpr ⟨?_, hrest⟩
    cases xs with
    | nil => exact (List.singleton_inj.mp htail).symm
    | cons d xs =>
      obtain ⟨rfl, _⟩ := List.cons_eq_cons.mp htail
      exact hrest d List.mem_cons_self

/-- A key that does not consist of spaces cannot be read farther on when a space and an equals sign follow it. -/
theorem not_read_on (hkey : ∃ c ∈ key, c ≠ ' ') {more gap tail tail' : List Char}
    (hmore : ∀ c ∈ more, isInlineBlank c = true) (hgap : ∀ c ∈ gap, isInlineBlank c = true)
    (h : key ++ ' ' :: '=' :: tail = more ++ (key ++ (gap ++ '=' :: tail'))) : more = [] := by
  have hequals : isInlineBlank '=' = false := by decide
  have hspace : isInlineBlank ' ' = true := by decide
  have hblanks := congrArg (List.takeWhile isInlineBlank) h
  rw [List.takeWhile_append_of_pos hmore] at hblanks
  by_cases hall : ∀ c ∈ key, isInlineBlank c = true
  · -- The key and the space behind it are all the blanks before the equals sign.
    rw [List.takeWhile_append_of_pos hall, List.takeWhile_append_of_pos hall,
      List.takeWhile_append_of_pos hgap] at hblanks
    simp only [List.takeWhile_cons, hspace, hequals, if_true, Bool.false_eq_true, if_false, List.append_nil] at hblanks
    cases more with
    | nil => rfl
    | cons b more =>
      have hlength := congrArg List.length hblanks
      simp only [List.length_append, List.length_cons, List.length_nil] at hlength
      obtain rfl : more = [] := List.eq_nil_of_length_eq_zero (by omega)
      obtain rfl : gap = [] := List.eq_nil_of_length_eq_zero (by omega)
      rw [List.append_nil] at hblanks
      obtain ⟨c, hc, hne⟩ := hkey
      exact absurd (all_eq_of_shift hblanks c hc) hne
  · -- The blanks at the start of the key end in the key.
    have hpart : ∀ rest, (key ++ rest).takeWhile isInlineBlank = key.takeWhile isInlineBlank := by
      intro rest
      rw [List.takeWhile_append, if_neg]
      intro hlength
      refine hall (List.all_eq_true.mp ?_)
      rw [← (List.takeWhile_prefix isInlineBlank).eq_of_length hlength]
      exact List.all_takeWhile
    rw [hpart, hpart] at hblanks
    exact List.append_left_eq_self.mp hblanks.symm

theorem Line.IsFirst.rewritten {l : Line text key} (hfirst : l.IsFirst) (hkey : ∃ c ∈ key, c ≠ ' ')
    (hvalue : ∀ c ∈ value, isInLine c = true) : (l.rewritten hvalue).IsFirst := by
  intro other
  have hlater := Line.not_earlier hfirst other
  change l.before.length < _ ∨ l.before.length = _ ∧ _ ≤ l.indent.length
  rcases Nat.lt_or_eq_of_le (Nat.le_of_not_lt hlater) with hlt | heq
  · exact .inl hlt
  · refine .inr ⟨heq, Nat.le_of_not_lt fun hlonger => ?_⟩
    have hparts := (List.append_inj other.text_eq heq).2
    obtain ⟨more, hmore⟩ : l.indent <+: other.indent :=
      List.prefix_of_prefix_length_le (List.prefix_append _ _) ⟨_, hparts.symm⟩ (Nat.le_of_lt hlonger)
    rw [← hmore, List.append_assoc, List.append_cancel_left_eq] at hparts
    have hblank : ∀ c ∈ more, isInlineBlank c = true := fun c hc =>
      other.blank_indent c (hmore ▸ List.mem_append_right _ hc)
    have hnil := not_read_on hkey hblank other.blank_gap hparts
    rw [← hmore, hnil] at hlonger
    simp at hlonger

/-! ## The last value -/

/-- Once a first value has been written, any second one is written as if the first had never been. -/
def LastWriteWins (key first : String) : Prop :=
  ∀ content second rewritten, assign? content key first = some rewritten →
    assign? rewritten key second = assign? content key second

theorem lastWriteWins_of_inLine {key first : String} (hkey : ∃ c ∈ key.toList, c ≠ ' ')
    (hfirst : ∀ c ∈ first.toList, isInLine c = true) : LastWriteWins key first := by
  intro content second rewritten hwritten
  obtain ⟨written, hchars, rfl⟩ := Option.map_eq_some_iff.mp hwritten
  obtain ⟨l, hl, rfl⟩ := assignChars?_eq_some_iff.mp hchars
  have hagain : assignChars? (l.assigned first.toList) key.toList second.toList = some (l.assigned second.toList) :=
    assignChars?_eq_some_iff.mpr ⟨l.rewritten hfirst, hl.rewritten hkey hfirst, rfl⟩
  have hplain : assignChars? content.toList key.toList second.toList = some (l.assigned second.toList) :=
    assignChars?_eq_some_iff.mpr ⟨l, hl, rfl⟩
  rw [assign?, assign?, String.toList_ofList, hagain, hplain]

/-- A text that is nothing but an assignment of nothing. -/
def bareLine (key : List Char) : Line (key ++ ['=']) key where
  before := []
  indent := []
  gap := []
  old := []
  after := []
  text_eq := rfl
  starts := by simp
  blank_indent := by simp
  blank_gap := by simp
  inLine_old := by simp
  stops := by simp

theorem isFirst_bareLine (key : List Char) : (bareLine key).IsFirst := by
  intro other
  have hlength := congrArg List.length other.text_eq
  simp only [List.length_append, List.length_cons, List.length_nil] at hlength
  change 0 < _ ∨ 0 = _ ∧ _ ≤ 0
  omega

/-- If the last value wins in the bare text, the reading that counts there after the first is bare again. -/
theorem exists_bare_of_lastWriteWins {key first : String} (hwins : LastWriteWins key first) :
    ∃ l : Line ((bareLine key.toList).assigned first.toList) key.toList,
      l.IsFirst ∧ l.before = [] ∧ l.indent = [] ∧ l.after = [] := by
  have hbare : ∀ value : String, assign? (String.ofList (key.toList ++ ['='])) key value =
      some (String.ofList ((bareLine key.toList).assigned value.toList)) := by
    intro value
    rw [assign?, String.toList_ofList, assignChars?_eq_some_iff.mpr ⟨_, isFirst_bareLine key.toList, rfl⟩]
    rfl
  have hagain := hwins _ "" _ (hbare first)
  rw [hbare, assign?, String.toList_ofList, Option.map_eq_some_iff] at hagain
  obtain ⟨written, hwritten, hsame⟩ := hagain
  obtain ⟨l, hl, rfl⟩ := assignChars?_eq_some_iff.mp hwritten
  have hlength := congrArg List.length (String.ofList_injective hsame)
  simp only [Line.assigned, bareLine, List.length_append, List.length_nil] at hlength
  refine ⟨l, hl, ?_, ?_, ?_⟩ <;> exact List.eq_nil_of_length_eq_zero (by omega)

theorem not_spaces_of_lastWriteWins {key first : String} (hwins : LastWriteWins key first) :
    ∃ c ∈ key.toList, c ≠ ' ' := by
  obtain ⟨l, hl, hbefore, hindent, _⟩ := exists_bare_of_lastWriteWins hwins
  refine Decidable.byContradiction fun hnone => ?_
  have hspaces : ∀ c ∈ key.toList, c = ' ' := by simpa using hnone
  -- Among spaces, the key can be read one place farther on.
  have hshift : key.toList ++ [' '] = ' ' :: key.toList := by
    rw [List.eq_replicate_of_mem hspaces, ← List.replicate_succ', List.replicate_succ]
  have htext : (bareLine key.toList).assigned first.toList =
      [] ++ ([' '] ++ (key.toList ++ ([] ++ '=' :: ' ' :: quoteChars first.toList))) := by
    have hspace : ∀ rest, key.toList ++ ' ' :: rest = ' ' :: (key.toList ++ rest) := fun rest => by
      rw [List.append_cons, hshift, List.cons_append]
    simp [Line.assigned, bareLine, hspace]
  have hmost := hl (.upToBreak [] [' '] [] _ htext (by simp) (List.all_eq_true.mp (by decide)) (by simp))
  simp only [Line.upToBreak, hbefore, hindent] at hmost
  simp at hmost

theorem inLine_of_lastWriteWins {key first : String} (hwins : LastWriteWins key first) :
    ∀ c ∈ first.toList, isInLine c = true := by
  obtain ⟨l, _, hbefore, hindent, hafter⟩ := exists_bare_of_lastWriteWins hwins
  have htext := l.text_eq
  simp only [Line.assigned, bareLine, hbefore, hindent, hafter, List.nil_append, List.append_nil,
    List.append_cancel_left_eq] at htext
  intro c hc
  have hmem : c ∈ l.gap ++ '=' :: l.old := by
    rw [← htext]
    exact List.mem_append_right _ (mem_quoteChars hc)
  rcases List.mem_append.mp hmem with hgap | hrest
  · exact isInLine_of_isInlineBlank (l.blank_gap c hgap)
  · rcases List.mem_cons.mp hrest with rfl | hold
    · decide
    · exact l.inLine_old c hold

theorem forall_isInLine_iff {cs : List Char} : (∀ c ∈ cs, isInLine c = true) ↔ '\n' ∉ cs ∧ '\r' ∉ cs := by
  have hline : ∀ c, isInLine c = true ↔ c ≠ '\n' ∧ c ≠ '\r' := by
    intro c
    simp [isInLine, and_comm]
  simp only [hline]
  constructor
  · intro h
    exact ⟨fun hn => (h _ hn).1 rfl, fun hr => (h _ hr).2 rfl⟩
  · rintro ⟨hn, hr⟩ c hc
    exact ⟨fun heq => hn (heq ▸ hc), fun heq => hr (heq ▸ hc)⟩

/-- The last value wins exactly if the key does not consist of spaces and the first value does not break the line. -/
theorem lastWriteWins_iff (key first : String) :
    LastWriteWins key first ↔ (∃ c ∈ key.toList, c ≠ ' ') ∧ '\n' ∉ first.toList ∧ '\r' ∉ first.toList := by
  rw [← forall_isInLine_iff]
  constructor
  · exact fun hwins => ⟨not_spaces_of_lastWriteWins hwins, inLine_of_lastWriteWins hwins⟩
  · rintro ⟨hkey, hfirst⟩
    exact lastWriteWins_of_inLine hkey hfirst

/-- A tab is a key like any other, although it is a blank. -/
theorem lastWriteWins_for_tab :
    LastWriteWins "\t" "a" ∧ ¬ ∃ c ∈ "\t".toList, c ≠ ' ' ∧ c ≠ '\t' := by
  have htab : "\t".toList = ['\t'] := by decide
  refine ⟨lastWriteWins_of_inLine ⟨'\t', by decide, by decide⟩ (List.all_eq_true.mp (by decide)), ?_⟩
  rintro ⟨c, hc, _, hne⟩
  rw [htab, List.mem_singleton] at hc
  exact hne hc

end Bringup.Assignment

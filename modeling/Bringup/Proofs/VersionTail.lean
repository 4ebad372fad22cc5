import Bringup.Proofs.VersionNumber

/-!
# Versions that are the end of a longer number

A number is read from a place where a word may start, and behind every point of a longer number there is such a place.
The leftmost one is taken, so a part in front is lost only where nothing can be read from it: where it belongs to a word.

* `version_is_tail_iff_behind_word`: when the version that is found is the end of a longer number.
* `major_part_after_letter_is_dropped`: with a letter in front, a number of three parts always loses the first.
-/

namespace Bringup.Version

set_option autoImplicit false

open Bringup.Text

variable {text : List Char}

/-- A digit and a point stand right before the place, so that what is read from it is the end of a longer number. -/
def IsTail (b : Spot) : Prop := ∃ d past, b.past = '.' :: d :: past ∧ isDigit d = true

/-- A run of digits and a point stand right before the place, and the run goes on with a word to the left. -/
def IsBehindWord (b : Spot) : Prop :=
  ∃ run w past, b.past = '.' :: (run.reverse ++ w :: past) ∧ IsRun run ∧ isWord w = true ∧ isDigit w = false

theorem IsBehindWord.isTail {b : Spot} (h : IsBehindWord b) : IsTail b := by
  obtain ⟨run, w, past, hpast, ⟨hne, hrun⟩, -, -⟩ := h
  obtain ⟨d, digits, hd⟩ := List.exists_cons_of_ne_nil (List.reverse_ne_nil_iff.mpr hne)
  refine ⟨d, digits ++ w :: past, by rw [hpast, hd, List.cons_append], hrun d ?_⟩
  rw [← List.mem_reverse, hd]
  exact List.mem_cons_self

namespace Start

variable {k : Nat}

/-- The run of digits before the point that precedes the leftmost number belongs to a word. -/
theorem IsFirst.exists_word {s : Start (k + 1) text} (hfirst : s.IsFirst) {before run : List Char}
    (hbefore : s.before = before ++ (run ++ ['.'])) (hrun : IsRun run) : ∃ w ∈ before.getLast?, isWord w = true := by
  refine Classical.byContradiction fun hnone => ?_
  have hopens : ∀ c ∈ before.getLast?, isWord c = false := by
    intro c hc
    rw [← Bool.not_eq_true]
    exact fun hword => hnone ⟨c, hc, hword⟩
  -- Otherwise the number could be read with that run in front, and so one with as many parts further left.
  obtain ⟨longer, hlonger⟩ := s.exists_longer hbefore hrun hopens
  obtain ⟨other, hother⟩ := longer.exists_shorter
  have hleft := hfirst other
  rw [hother, hlonger, hbefore] at hleft
  simp only [List.length_append, List.length_cons, List.length_nil] at hleft
  omega

theorem IsFirst.isBehindWord {s : Start (k + 1) text} (hfirst : s.IsFirst) (htail : IsTail s.opening) :
    IsBehindWord s.opening := by
  obtain ⟨d, past, hpast, hd⟩ := htail
  have hsplit := List.takeWhile_append_dropWhile (p := isDigit) (l := d :: past)
  generalize hrun : (d :: past).takeWhile isDigit = run at hsplit
  generalize hleft : (d :: past).dropWhile isDigit = left at hsplit
  have hisRun : IsRun run.reverse := by
    refine ⟨?_, fun c hc => ?_⟩
    · rw [← hrun, List.takeWhile_cons_of_pos hd]
      simp
    · rw [← hrun, List.mem_reverse] at hc
      exact List.all_eq_true.mp List.all_takeWhile c hc
  have hbefore : s.before = left.reverse ++ (run.reverse ++ ['.']) := by
    have hreverse : s.before.reverse = '.' :: (run ++ left) := by rw [hsplit]; exact hpast
    rw [← List.reverse_reverse s.before, hreverse]
    simp
  obtain ⟨w, hw, hword⟩ := hfirst.exists_word hbefore hisRun
  rw [List.getLast?_reverse] at hw
  obtain ⟨more, rfl⟩ := List.head?_eq_some_iff.mp hw
  refine ⟨run.reverse, w, more, ?_, hisRun, hword, ?_⟩
  · rw [hpast, List.reverse_reverse, hsplit]
  · have hstop := List.head?_dropWhile_not isDigit (d :: past)
    rw [hleft] at hstop
    simpa using hstop

end Start

theorem exists_start_of_found {b e : Spot} (h : found? text = some (b, e)) :
    ∃ k, ∃ s : Start (k + 1) text, s.IsFirst ∧ b = s.opening := by
  rw [found?, Option.or_eq_some_iff] at h
  rcases h with h | ⟨-, h⟩
  · obtain ⟨s, hfirst, hb, -⟩ := find?_triple_eq_some_iff.mp h
    exact ⟨2, s, hfirst, hb⟩
  · obtain ⟨s, hfirst, hb, -⟩ := find?_pair_eq_some_iff.mp h
    exact ⟨1, s, hfirst, hb⟩

/-- The version that a text names is the end of a longer number exactly if the run of digits before it belongs to a
word. -/
theorem version_is_tail_iff_behind_word (text version : String) (h : ofText? text = some version) :
    ∃ b e, found? text.toList = some (b, e) ∧ version = String.ofList (b.upTo e) ∧ (IsTail b ↔ IsBehindWord b) := by
  rw [ofText?_eq_map_found?, Option.map_eq_some_iff] at h
  obtain ⟨⟨b, e⟩, hfound, rfl⟩ := h
  refine ⟨b, e, hfound, rfl, ?_, IsBehindWord.isTail⟩
  obtain ⟨k, s, hfirst, rfl⟩ := exists_start_of_found hfound
  exact hfirst.isBehindWord

theorem version_is_tail_iff_behind_word_in_banner :
    ofText? "tool v1.2.3 (2024)" = some "2.3" ∧
      ∃ b e, found? "tool v1.2.3 (2024)".toList = some (b, e) ∧ "2.3" = String.ofList (b.upTo e) ∧
        (IsTail b ↔ IsBehindWord b) :=
  have hversion : ofText? "tool v1.2.3 (2024)" = some "2.3" := by decide +kernel
  ⟨hversion, version_is_tail_iff_behind_word _ _ hversion⟩

/-- The version of a text need not be a whole number: the first part of `v1.2.3` is lost. -/
theorem version_after_letter_is_tail :
    ofText? "v1.2.3" = some "2.3" ∧
      found? "v1.2.3".toList = some (⟨['.', '1', 'v'], ['2', '.', '3']⟩, ⟨['3', '.', '2', '.', '1', 'v'], []⟩) ∧
      IsTail ⟨['.', '1', 'v'], ['2', '.', '3']⟩ :=
  ⟨by decide +kernel, by decide +kernel, '1', ['v'], rfl, by decide⟩

/-! ## A letter in front -/

/-- No number is read from inside a word, unless from its start. -/
theorem Start.length_lt_before {k : Nat} {word rest : List Char} (hword : ∀ c ∈ word, isWord c = true)
    (hhead : ∃ c ∈ word.head?, isDigit c = false) (s : Start (k + 1) (word ++ rest)) :
    word.length < s.before.length := by
  refine Nat.lt_of_not_le fun hle => ?_
  by_cases hbefore : s.before = []
  · -- The number would start with the first character of the word.
    obtain ⟨d, more, hd, hdigit⟩ := s.opening_eq
    have hrest : s.number ++ s.after = d :: more := congrArg Spot.rest hd
    obtain ⟨c, hc, hletter⟩ := hhead
    obtain ⟨cs, rfl⟩ := List.head?_eq_some_iff.mp hc
    have hsplit : c :: (cs ++ rest) = d :: more := by
      rw [← hrest, ← List.nil_append (s.number ++ s.after), ← hbefore]
      exact s.text_eq
    obtain ⟨rfl, -⟩ := List.cons_eq_cons.mp hsplit
    rw [hdigit] at hletter
    cases hletter
  · have hwithin : s.before <+: word :=
      List.prefix_of_prefix_length_le ⟨_, s.text_eq.symm⟩ (List.prefix_append word rest) hle
    have hclash := s.opens _ (List.getLast?_eq_some_getLast hbefore)
    rw [hword _ (hwithin.subset (List.getLast_mem hbefore))] at hclash
    cases hclash

theorem not_mem_of_isRun {run : List Char} (hrun : IsRun run) : '.' ∉ run := by
  intro hdot
  have hclash := hrun.2 '.' hdot
  rw [not_isDigit_dot] at hclash
  cases hclash

theorem count_dotted {runs : List (List Char)} (hne : runs ≠ []) (hruns : ∀ run ∈ runs, IsRun run) :
    (dotted runs).count '.' + 1 = runs.length := by
  induction runs with
  | nil => exact absurd rfl hne
  | cons run runs ih =>
    obtain ⟨hrun, hruns⟩ := List.forall_mem_cons.mp hruns
    have hzero := List.count_eq_zero.mpr (not_mem_of_isRun hrun)
    by_cases hlast : runs = []
    · simp [hlast, dotted, hzero]
    · rw [dotted_cons hlast, List.count_append, List.count_cons_self, hzero, List.length_cons, ← ih hlast hruns]
      omega

/-- Behind a point, a number has no more parts than the points that follow leave room for. -/
theorem Start.parts_le {k : Nat} {word rest : List Char} (s : Start (k + 1) (word ++ '.' :: rest))
    (hbehind : word.length < s.before.length) : k ≤ rest.count '.' := by
  have hwithin : word ++ ['.'] <+: s.before :=
    List.prefix_of_prefix_length_le ⟨rest, by simp⟩ ⟨_, s.text_eq.symm⟩ (by rw [List.length_append]; exact hbehind)
  have hbefore := hwithin.sublist.count_le '.'
  have hnumber := count_dotted s.runs_ne_nil s.isRun
  have hcount := congrArg (List.count '.') s.text_eq
  rw [s.length_runs] at hnumber
  simp only [List.count_append, List.count_cons_self, List.count_nil] at hbefore hcount
  omega

/-- With a letter right in front of it, a number of three parts loses the first. -/
theorem major_part_after_letter_is_dropped {w : Char} (hword : isWord w = true) (hletter : isDigit w = false)
    {major minor patch : List Char} (hmajor : IsRun major) (hminor : IsRun minor) (hpatch : IsRun patch) :
    ofText? (String.ofList (w :: dotted [major, minor, patch])) = some (String.ofList (dotted [minor, patch])) := by
  have htext : w :: dotted [major, minor, patch] = (w :: major) ++ '.' :: dotted [minor, patch] := by
    rw [dotted_cons (by simp), List.cons_append]
  have hruns : ∀ run ∈ [minor, patch], IsRun run := by simp [hminor, hpatch]
  have hbehind : ∀ {k : Nat} (s : Start (k + 1) ((w :: major) ++ '.' :: dotted [minor, patch])),
      (w :: major).length < s.before.length := by
    refine fun s => s.length_lt_before (List.forall_mem_cons.mpr ⟨hword, fun c hc => ?_⟩) ⟨w, rfl, hletter⟩
    exact isWord_of_isDigit (hmajor.2 c hc)
  have hnone : ¬ Nonempty (Start 3 ((w :: major) ++ '.' :: dotted [minor, patch])) := by
    rintro ⟨s⟩
    have hparts := s.parts_le (hbehind s)
    have hcount := count_dotted (by simp) hruns
    rw [List.length_cons, List.length_singleton] at hcount
    omega
  let s : Start 2 ((w :: major) ++ '.' :: dotted [minor, patch]) :=
    { before := (w :: major) ++ ['.']
      runs := [minor, patch]
      after := []
      text_eq := by simp
      length_runs := rfl
      isRun := hruns
      opens := fun c hc => by
        rw [List.getLast?_concat] at hc
        exact Option.some.inj hc ▸ not_isWord_dot
      closes := fun c hc => by cases hc }
  have hfirst : s.IsFirst := fun other => by
    rw [List.length_append]
    exact hbehind other
  rw [ofText?_eq_map_found?, found?, htext, String.toList_ofList, find?_triple_eq_none_iff.mpr hnone, Option.none_or,
    find?_pair_eq_some_iff.mpr ⟨s, hfirst, rfl, rfl⟩, Option.map_some]
  dsimp only
  rw [Start.closing, s.upTo_opening (List.nil_append _).symm, List.append_nil]
  rfl

end Bringup.Version

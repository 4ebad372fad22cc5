import Bringup.Proofs.KeptAnswers
import Mathlib.Data.List.Find
import Mathlib.Data.List.Induction

/-!
# Directories that are searched

The same directory may come up several times, in different spellings. Only the first one is searched.

* `ToolSearch.distinct_eq_firstSpellings`: which directories are kept. `ToolSearch.find?_distinct`: what a search among
  them finds.
* `ToolSearch.tool_is_found_under_first_spelling`: leaving out the other spellings loses no tool, unless the path under
  the spelling that is kept is too long; `ToolSearch.long_spelling_hides_tool`: then it may.
-/

namespace Bringup.ToolSearch

set_option autoImplicit false

open Bringup.Text (Glyph Raw)

/-! ## Directories without repetition -/

theorem same_congr {p q : Path} (h : p.same q = true) : p.same = q.same := by
  funext r
  rw [Path.same, Path.same, Path.same_iff.mp h]

theorem distinct_concat (paths : List Path) (p : Path) :
    distinct (paths ++ [p]) = if (distinct paths).any p.same then distinct paths else distinct paths ++ [p] := by
  rw [distinct, List.foldl_append]
  rfl

theorem any_distinct (paths : List Path) (p : Path) : (distinct paths).any p.same = paths.any p.same := by
  induction paths using List.reverseRecOn with
  | nil => rfl
  | append_singleton paths q ih =>
    rw [distinct_concat, List.any_append, ← ih]
    split
    · next hq =>
      by_cases hpq : p.same q = true
      · rw [same_congr hpq, hq]
        rfl
      · simp [hpq]
    · rw [List.any_append]

theorem pairwise_distinct (paths : List Path) : (distinct paths).Pairwise fun d e => d.same e = false := by
  induction paths using List.reverseRecOn with
  | nil => exact .nil
  | append_singleton paths q ih =>
    rw [distinct_concat]
    split
    · exact ih
    · next hq =>
      refine List.pairwise_append.mpr ⟨ih, List.pairwise_singleton _ _, fun d hd e he => ?_⟩
      rw [List.mem_singleton.mp he, ← Bool.not_eq_true]
      intro hsame
      refine hq (List.any_eq_true.mpr ⟨d, hd, ?_⟩)
      rw [← same_congr hsame, Path.same_iff]

/-- The paths that no path before them is the same as. -/
def firstSpellings (paths : List Path) : List Path :=
  (paths.zipIdx.filter fun (p, i) => !(paths.take i).any p.same).map Prod.fst

theorem firstSpellings_concat (paths : List Path) (p : Path) :
    firstSpellings (paths ++ [p]) = firstSpellings paths ++ if paths.any p.same then [] else [p] := by
  have hbefore : ∀ e ∈ paths.zipIdx, (!((paths ++ [p]).take e.2).any e.1.same) = !(paths.take e.2).any e.1.same := by
    intro e he
    obtain ⟨-, hlt, -⟩ := List.mem_zipIdx he
    rw [List.take_append_of_le_length (by omega)]
  rw [firstSpellings, List.zipIdx_append, List.filter_append, List.map_append, List.filter_congr hbefore,
    firstSpellings]
  congr 1
  rw [List.zipIdx_singleton, Nat.zero_add, List.filter_singleton]
  dsimp only
  rw [List.take_left]
  cases paths.any p.same with
  | true => rfl
  | false => rfl

theorem distinct_eq_firstSpellings (paths : List Path) : distinct paths = firstSpellings paths := by
  induction paths using List.reverseRecOn with
  | nil => rfl
  | append_singleton paths p ih =>
    rw [distinct_concat, firstSpellings_concat, any_distinct, ih]
    split
    · rw [List.append_nil]
    · rfl

/-- A search that goes by what paths have in common finds the same among all paths, as far as it does not depend on
the spelling that is kept. -/
theorem find?_distinct {test passes : Path → Bool} {paths : List Path}
    (hspread : ∀ d ∈ paths, ∀ k ∈ paths, k.same d = true → test d = true → passes k = true → test k = true)
    (hself : ∀ d ∈ paths, test d = true → passes d = true) :
    Option.Rel (fun k d => k.same d = true) ((distinct paths).find? test)
      (paths.find? fun d => test d && (paths.find? d.same).all passes) := by
  induction paths using List.reverseRecOn with
  | nil => exact .none
  | append_singleton paths p ih =>
    have ih := ih (fun d hd k hk => hspread d (List.mem_append_left _ hd) k (List.mem_append_left _ hk))
      fun d hd => hself d (List.mem_append_left _ hd)
    have hsame : ∀ d ∈ paths, (paths ++ [p]).find? d.same = paths.find? d.same := by
      intro d hd
      rw [List.find?_append, Option.or_of_isSome (List.find?_isSome.mpr ⟨d, hd, Path.same_iff.mpr rfl⟩)]
    have hbefore : (paths.find? fun d => test d && ((paths ++ [p]).find? d.same).all passes) =
        paths.find? fun d => test d && (paths.find? d.same).all passes :=
      List.find?_congr fun d hd => by rw [hsame d hd]
    rw [List.find?_append, hbefore, distinct_concat]
    generalize hkept : (distinct paths).find? test = kept at ih
    generalize hall : (paths.find? fun d => test d && (paths.find? d.same).all passes) = all at ih
    cases ih with
    | some hsame =>
      split
      · rw [hkept]
        exact .some hsame
      · rw [List.find?_append, hkept]
        exact .some hsame
    | none =>
      rw [any_distinct, Option.none_or, List.find?_singleton, List.find?_append]
      cases hfirst : paths.find? p.same with
      | some k =>
        -- The first spelling of `p` would have been found, had it passed.
        have hk := List.mem_of_find?_eq_some hfirst
        have hpk : p.same = k.same := same_congr (List.find?_some hfirst)
        rw [if_pos (List.any_eq_true.mpr ⟨k, hk, List.find?_some hfirst⟩), hkept, Option.some_or, Option.all_some]
        split
        · next hp =>
          obtain ⟨htest, hpasses⟩ := Bool.and_eq_true_iff.mp hp
          have hk_test := hspread p (List.mem_append_right _ List.mem_cons_self) k (List.mem_append_left _ hk)
            (by rw [← hpk, Path.same_iff]) htest hpasses
          refine absurd ?_ (List.find?_eq_none.mp hall k hk)
          rw [hk_test, ← hpk, hfirst]
          exact hpasses
        · exact .none
      | none =>
        have hp : (test p && passes p) = test p := by
          have hself := hself p (List.mem_append_right _ List.mem_cons_self)
          cases htest : test p with
          | true => rw [hself htest, Bool.and_true]
          | false => rfl
        have hany : ¬ paths.any p.same = true := by
          simpa using List.find?_eq_none.mp hfirst
        have hpp : p.same p = true := Path.same_iff.mpr rfl
        rw [if_neg hany, List.find?_append, hkept, Option.none_or, Option.none_or, List.find?_singleton,
          List.find?_singleton, if_pos hpp, Option.all_some, hp]
        split
        · exact .some hpp
        · exact .none

/-! ## Tools in directories that are spelled in several ways -/

/-- The absolute directories that come into question, in every spelling. -/
def spelledDirectories (policy : Policy) (h : Host) : List Path :=
  (candidates policy h.searchPath h.home).filter Path.isAbsolute

/-- Under the first spelling of a directory the path of a tool is not too long. -/
def inReach (dirs : List Path) (name : String) (dir : Path) : Bool :=
  (dirs.find? dir.same).all fun first => (first.child name).size < FileTree.pathLimit

/-- The directory has a file of the tool's name, in reach. -/
def holds (policy : Policy) (name : String) (h : Host) (dir : Path) : Bool :=
  h.files.isFile h.cwd (dir.child name) && inReach (spelledDirectories policy h) name dir

theorem isAbsolute_of_mem_spelled {policy : Policy} {h : Host} {d : Path} (hd : d ∈ spelledDirectories policy h) :
    d.isAbsolute = true := (List.mem_filter.mp hd).2

theorem foundIn_rel (policy : Policy) (name : String) (h : Host) :
    Option.Rel (fun k d => k.isAbsolute = true ∧ d.isAbsolute = true ∧ k.same d = true) (foundIn policy name h)
      ((spelledDirectories policy h).find? (holds policy name h)) := by
  have hrel : Option.Rel (fun k d => k.same d = true) (foundIn policy name h)
      ((spelledDirectories policy h).find? (holds policy name h)) := by
    refine find?_distinct (fun d hd k hk hsame hfile hshort => ?_) fun d hd hfile => ?_
    · exact FileTree.isFile_child_of_same (isAbsolute_of_mem_spelled hk) (isAbsolute_of_mem_spelled hd) hsame
        (of_decide_eq_true hshort) hfile
    · exact decide_eq_true (FileTree.short_of_isFile hfile)
  generalize hkept : foundIn policy name h = kept at hrel
  generalize hall : (spelledDirectories policy h).find? (holds policy name h) = all at hrel
  cases hrel with
  | none => exact .none
  | some hsame =>
    have hk := isAbsolute_of_mem_directories (List.mem_of_find?_eq_some hkept)
    exact .some ⟨hk, isAbsolute_of_mem_spelled (List.mem_of_find?_eq_some hall), hsame⟩

theorem exists_kept {policy : Policy} {h : Host} {d : Path} (hd : d ∈ spelledDirectories policy h) :
    ∃ k ∈ directories policy h.searchPath h.home, k.same d = true := by
  have hany : (directories policy h.searchPath h.home).any d.same = true := by
    rw [directories, any_distinct]
    exact List.any_eq_true.mpr ⟨d, hd, Path.same_iff.mpr rfl⟩
  obtain ⟨k, hk, hsame⟩ := List.any_eq_true.mp hany
  exact ⟨k, hk, Path.same_iff.mpr (Path.same_iff.mp hsame).symm⟩

/-- Tools are looked for under the first spelling of each absolute directory, and found there if they are in any of
them: leaving out the other spellings loses none, unless the path under the first one is too long. Whatever a detector
was asked before, no path of the disassembler that it finds is dropped for not being absolute. -/
theorem tool_is_found_under_first_spelling (policy : Policy) (name : String) (h : Host) :
    let all := spelledDirectories policy h
    let kept := directories policy h.searchPath h.home
    let status := ((detectNow policy name).run h).1
    (kept = firstSpellings all ∧ kept.Pairwise (fun d e => d.same e = false) ∧
      ∀ d ∈ all, ∃ k ∈ kept, k.same d = true) ∧
    (status.available = true ↔ ∃ d ∈ all, holds policy name h d = true) ∧
    (∀ d, all.find? (holds policy name h) = some d →
      ∃ tool, status.path = some tool ∧ tool.same (d.child name) = true) ∧
    ∀ past, ((findDisassembler.run (Detector.after { policy } past)).run h).1.1 =
      (((detect disassemblerTool).run (Detector.after { policy } past)).run h).1.1.path := by
  intro all kept status
  obtain ⟨n, h', -, -, hrun, -⟩ := run_detectNow policy name h
  have hstatus : status = finding policy name h (h.clock n) := congrArg Prod.fst hrun
  have hrel := foundIn_rel policy name h
  rw [hstatus, available_finding, path_finding, ← List.find?_isSome]
  change _ ∧ (_ ↔ (all.find? _).isSome = true) ∧ _
  refine ⟨⟨distinct_eq_firstSpellings all, pairwise_distinct all, fun d hd => exists_kept hd⟩, ?_⟩
  refine ⟨?_, fun d hd => ?_, fun past => findDisassembler_of_recorded (recorded_session (recorded_new policy) past) h⟩
  · generalize foundIn policy name h = x at hrel ⊢
    generalize (spelledDirectories policy h).find? (holds policy name h) = y at hrel
    cases hrel with
    | none => exact Iff.rfl
    | some hsame => exact ⟨fun _ => rfl, fun _ => rfl⟩
  · rw [hd] at hrel
    generalize foundIn policy name h = x at hrel ⊢
    cases hrel with
    | some hsame => exact ⟨_, rfl, Path.same_child hsame.1 hsame.2.1 hsame.2.2 name⟩

/-- A directory, spelled with so many slashes. -/
def slashedBin (n : Nat) : Path := ⟨List.replicate n (.char '/') ++ Raw.ofText "bin"⟩

theorem isAbsolute_slashedBin (n : Nat) : (slashedBin (n + 1)).isAbsolute = true := rfl

theorem steps_slashedBin (n : Nat) : (slashedBin n).steps = [Raw.ofText "bin"] := by
  induction n with
  | zero => rfl
  | succ n ih =>
    rw [Path.steps, Path.pieces, slashedBin] at ih ⊢
    rw [List.replicate_succ, List.cons_append, ← List.nil_append (Glyph.char '/' :: _), List.splitOn_append_cons_self]
    exact ih

/-- A tool whose directory is on the search path with many slashes, and then with one. -/
def respelledHost (n : Nat) : Host where
  files := ⟨[(["bin"], .directory), (["bin", "git"], .program [] true)]⟩
  searchPath := some ((slashedBin n).spelling ++ Raw.ofText ":/bin")

/-- Only the search path is searched. -/
def pathOnly : Policy := { userDirectories := false, systemDirectories := false }

theorem spelled_respelledHost (n : Nat) :
    spelledDirectories pathOnly (respelledHost (n + 1)) = [slashedBin (n + 1), ⟨"/bin"⟩] := by
  have hcolon : Glyph.char ':' ∉ (slashedBin (n + 1)).spelling := by
    intro hmem
    rcases List.mem_append.mp hmem with hslash | hbin
    · cases List.eq_of_mem_replicate hslash
    · revert hbin
      decide
  have hlist : ∀ p : Path, Glyph.char ':' ∉ p.spelling →
      searchDirectories (p.spelling ++ Raw.ofText ":/bin") = [p, ⟨"/bin"⟩] := by
    intro p hp
    change ((p.spelling ++ .char ':' :: Raw.ofText "/bin").splitOn (.char ':')).map _ = _
    rw [List.splitOn_append_cons_self, List.splitOn_eq_singleton hp]
    rfl
  rw [spelledDirectories, candidates, respelledHost, Option.map_some, Option.getD_some, hlist _ hcolon]
  rfl

theorem size_le_child (dir : Path) {name : Raw} (hname : (⟨name⟩ : Path).isAbsolute = false) :
    dir.size ≤ (dir.child name).size := by
  rw [Path.child, Path.join, hname, if_neg Bool.false_ne_true, Path.size, Path.size]
  split
  · rw [Raw.size_append]
    omega
  · rw [Raw.size_append]
    omega

theorem size_slashedBin (n : Nat) : (slashedBin n).size = n + 3 := by
  have hslashes : Raw.size (List.replicate n (.char '/')) = n := by
    induction n with
    | zero => rfl
    | succ n ih =>
      rw [List.replicate_succ', Raw.size_append, ih]
      rfl
  rw [Path.size, slashedBin, Raw.size_append, hslashes]
  rfl

theorem not_inReach_slashedBin (n : Nat) (hn : FileTree.pathLimit ≤ n + 1) {d : Path}
    (hd : d ∈ [slashedBin (n + 1), ⟨"/bin"⟩]) : inReach [slashedBin (n + 1), ⟨"/bin"⟩] "git" d = false := by
  have hbin : (⟨"/bin"⟩ : Path).isAbsolute = true := by decide
  have hsame : d.same (slashedBin (n + 1)) = true := by
    rcases List.mem_cons.mp hd with rfl | hd
    · exact Path.same_iff.mpr rfl
    · rw [List.mem_singleton.mp hd, Path.same_iff_steps hbin (isAbsolute_slashedBin n), steps_slashedBin]
      decide
  have hsize : n + 1 ≤ ((slashedBin (n + 1)).child "git").size := by
    have hname : (⟨"git"⟩ : Path).isAbsolute = false := by decide
    have hchild := size_le_child (slashedBin (n + 1)) hname
    rw [size_slashedBin] at hchild
    omega
  rw [inReach, List.find?_cons_of_pos hsame, Option.all_some, decide_eq_false_iff_not]
  omega

/-- A tool is not found in a directory whose first spelling is too long, though another spelling leads to it. -/
theorem long_spelling_hides_tool :
    (∃ d ∈ spelledDirectories pathOnly (respelledHost 4096),
      (respelledHost 4096).files.isFile (respelledHost 4096).cwd (d.child "git") = true) ∧
      ((detectNow pathOnly "git").run (respelledHost 4096)).1.available = false := by
  have hspelled := spelled_respelledHost 4095
  refine ⟨⟨⟨"/bin"⟩, ?_, by decide +kernel⟩, ?_⟩
  · rw [hspelled]
    exact List.mem_cons_of_mem _ List.mem_cons_self
  · have hnone : (spelledDirectories pathOnly (respelledHost 4096)).find? (holds pathOnly "git" (respelledHost 4096)) =
        none := by
      rw [List.find?_eq_none]
      intro d hd
      rw [hspelled] at hd
      rw [holds, hspelled, not_inReach_slashedBin 4095 (Nat.le_refl _) hd, Bool.and_false]
      exact Bool.false_ne_true
    have hrel := foundIn_rel pathOnly "git" (respelledHost 4096)
    obtain ⟨n, h', -, -, hrun, -⟩ := run_detectNow pathOnly "git" (respelledHost 4096)
    rw [hrun, available_finding]
    rw [hnone] at hrel
    generalize foundIn pathOnly "git" (respelledHost 4096) = found at hrel ⊢
    cases hrel
    rfl

end Bringup.ToolSearch

import Bringup.Proofs.KeptAnswers
import Mathlib.Data.List.DropRight

/-!
# The source that is reported for a tool

The source of a tool is judged by the directory that was searched, as it is spelled there.

* `Path.parent`: the directory that a path stands in. `Path.tidied`: its shortest spelling.
* `InstallSource.ofDirectory_eq_iff`: when two spellings of a directory tell the same source.
* `ToolSearch.source_is_of_searched_directory`: what the source that is reported has to do with the path that is
  reported; `ToolSearch.source_of_another_directory`: it may be that of another directory, or another one.
-/

namespace Bringup

set_option autoImplicit false

open Bringup.Text (Glyph Raw)

/-! ## Pieces at the end -/

section

variable {α β : Type} {p : α → Bool}

theorem rdropWhile_append (l r : List α) :
    (l ++ r).rdropWhile p = if (r.rdropWhile p).isEmpty then l.rdropWhile p else l ++ r.rdropWhile p := by
  rw [List.rdropWhile, List.rdropWhile, List.rdropWhile, List.reverse_append, List.dropWhile_append,
    List.isEmpty_reverse]
  split
  · rfl
  · rw [List.reverse_append, List.reverse_reverse]

theorem rdropWhile_append_of_all (l : List α) {r : List α} (hr : ∀ x ∈ r, p x = true) :
    (l ++ r).rdropWhile p = l.rdropWhile p := by
  rw [rdropWhile_append, if_pos]
  rw [List.isEmpty_iff, List.rdropWhile_eq_nil_iff]
  exact hr

theorem rdropWhile_append_of_ne_nil (l : List α) {r : List α} (hr : r.rdropWhile p ≠ []) :
    (l ++ r).rdropWhile p = l ++ r.rdropWhile p := by
  rw [rdropWhile_append, if_neg (by simpa using hr)]

theorem rdropWhile_append_cons (l : List α) {x : α} (hx : p x = false) (r : List α) :
    (l ++ x :: r).rdropWhile p = l ++ x :: r.rdropWhile p := by
  have hkept : (x :: r).rdropWhile p = x :: r.rdropWhile p := by
    rw [← List.singleton_append, rdropWhile_append]
    split
    · next hempty =>
      rw [List.isEmpty_iff.mp hempty]
      exact List.rdropWhile_concat_neg p [] x (by simp [hx])
    · rfl
  rw [rdropWhile_append_of_ne_nil l (by rw [hkept]; exact List.cons_ne_nil _ _), hkept]

theorem rdropWhile_prefix_append (l r : List α) : l.rdropWhile p <+: (l ++ r).rdropWhile p := by
  have hkept := List.rdropWhile_prefix p l
  rw [rdropWhile_append]
  split
  · exact List.prefix_rfl
  · exact hkept.trans (List.prefix_append _ _)

theorem filter_rdropWhile (l : List α) : ((l.rdropWhile p).filter fun x => !p x) = l.filter fun x => !p x := by
  have hidle : ((l.rtakeWhile p).filter fun x => !p x) = [] := by
    rw [List.filter_eq_nil_iff]
    intro x hx
    simp [List.mem_rtakeWhile_imp hx]
  conv => rhs; rw [← List.rdropWhile_append_rtakeWhile (p := p) (l := l)]
  rw [List.filter_append, hidle, List.append_nil]

theorem intercalate_prefix_append {sep : List α} {l : List (List α)} (hl : l ≠ []) (r : List (List α)) :
    sep.intercalate l <+: sep.intercalate (l ++ r) := by
  induction l with
  | nil => exact absurd rfl hl
  | cons first l ih =>
    cases l with
    | nil =>
      cases r with
      | nil => exact List.prefix_rfl
      | cons second r =>
        rw [List.intercalate_singleton, List.singleton_append, List.intercalate_cons_cons, List.append_assoc]
        exact List.prefix_append _ _
    | cons second l =>
      rw [List.cons_append, List.cons_append, List.intercalate_cons_cons, List.intercalate_cons_cons]
      exact (List.prefix_append_right_inj _).mpr (ih (List.cons_ne_nil _ _))

theorem not_mem_of_mem_splitOn [BEq α] [LawfulBEq α] {x : α} {text piece : List α} (hpiece : piece ∈ text.splitOn x) :
    x ∉ piece := by
  induction text generalizing piece with
  | nil =>
    rw [List.splitOn_nil, List.mem_singleton] at hpiece
    rw [hpiece]
    exact List.not_mem_nil
  | cons a text ih =>
    rw [List.splitOn_cons_eq_if_modifyHead] at hpiece
    by_cases ha : a = x
    · rw [if_pos (beq_iff_eq.mpr ha)] at hpiece
      rcases List.mem_cons.mp hpiece with rfl | hpiece
      · exact List.not_mem_nil
      · exact ih hpiece
    · rw [if_neg (by simpa using ha)] at hpiece
      cases hsplit : text.splitOn x with
      | nil =>
        rw [hsplit] at hpiece
        cases hpiece
      | cons first pieces =>
        rw [hsplit] at hpiece ih
        rcases List.mem_cons.mp hpiece with rfl | hpiece
        · intro hmem
          rcases List.mem_cons.mp hmem with rfl | hmem
          · exact ha rfl
          · exact ih List.mem_cons_self hmem
        · exact ih (List.mem_cons_of_mem _ hpiece)

theorem splitOn_map [BEq α] [BEq β] {f : α → β} {x : α} {y : β} (hf : ∀ a, (f a == y) = (a == x)) (text : List α) :
    (text.map f).splitOn y = (text.splitOn x).map (List.map f) := by
  induction text with
  | nil => rw [List.map_nil, List.splitOn_nil, List.splitOn_nil]; rfl
  | cons a text ih =>
    rw [List.map_cons, List.splitOn_cons_eq_if_modifyHead, List.splitOn_cons_eq_if_modifyHead, hf, ih]
    split
    · rfl
    · cases text.splitOn x with
      | nil => rfl
      | cons piece pieces => rfl

end

namespace Path

/-! ## Directories of a path -/

/-- The absolute path with these pieces, of which the first is empty. -/
def ofPieces (pieces : List Raw) : Path :=
  if pieces.length ≤ 1 then ⟨"/"⟩ else ⟨[.char '/'].intercalate pieces⟩

/-- The absolute path without slashes and dots at its end. -/
def trimmed (p : Path) : Path := ofPieces (p.pieces.rdropWhile isIdle)

/-- The directory that an absolute path stands in. -/
def parent (p : Path) : Path := ofPieces ((p.pieces.rdropWhile isIdle).dropLast.rdropWhile isIdle)

/-- The shortest spelling of an absolute path. -/
def tidied (p : Path) : Path := ofPieces ([] :: p.steps)

example : (⟨"/usr//bin/./git/"⟩ : Path).parent = ⟨"/usr//bin"⟩ ∧ (⟨"/usr//./bin/"⟩ : Path).tidied = ⟨"/usr/bin"⟩ := by
  decide +kernel

section

variable {p q : Path} {pieces : List Raw}

theorem pieces_ofPieces (hslash : ∀ piece ∈ pieces, Glyph.char '/' ∉ piece) (hlen : 1 < pieces.length) :
    (ofPieces pieces).pieces = pieces := by
  have hne : pieces ≠ [] := by
    rintro rfl
    exact Nat.not_lt_zero _ hlen
  rw [ofPieces, if_neg (by omega), Path.pieces, List.splitOn_intercalate _ hslash hne]

theorem ofPieces_pieces (hlen : 1 < p.pieces.length) : ofPieces p.pieces = p := by
  rw [ofPieces, if_neg (by omega), Path.pieces, List.intercalate_splitOn]

theorem pieces_of_isAbsolute (hp : p.isAbsolute = true) : ∃ rest, rest ≠ [] ∧ p.pieces = [] :: rest := by
  obtain ⟨rest, hrest⟩ : ∃ rest, p.spelling = .char '/' :: rest := List.head?_eq_some_iff.mp (eq_of_beq hp)
  refine ⟨rest.splitOn (.char '/'), List.splitOn_ne_nil _ _, ?_⟩
  rw [pieces, hrest, List.splitOn_cons_eq_if_modifyHead, if_pos (by rfl)]

theorem isAbsolute_ofPieces (hhead : ∀ piece ∈ pieces.head?, piece = []) : (ofPieces pieces).isAbsolute = true := by
  rw [ofPieces]
  split
  · rfl
  · next hlen =>
    cases pieces with
    | nil => exact absurd (Nat.zero_le 1) hlen
    | cons first rest =>
      obtain rfl := hhead first rfl
      cases rest with
      | nil => exact absurd (Nat.le_refl 1) hlen
      | cons second rest =>
        rw [isAbsolute, List.intercalate_cons_cons]
        rfl

theorem steps_ofPieces (hslash : ∀ piece ∈ pieces, Glyph.char '/' ∉ piece) (hhead : ∀ piece ∈ pieces.head?, piece = []) :
    (ofPieces pieces).steps = pieces.filter fun piece => !isIdle piece := by
  by_cases hlen : 1 < pieces.length
  · rw [steps, pieces_ofPieces hslash hlen]
  · rw [ofPieces, if_pos (by omega)]
    cases pieces with
    | nil => rfl
    | cons first rest =>
      obtain rfl := hhead first rfl
      obtain rfl : rest = [] := List.eq_nil_of_length_eq_zero (by rw [List.length_cons] at hlen; omega)
      rfl

theorem first_pieces (hp : p.isAbsolute = true) (hstart : pieces <+: p.pieces) :
    (∀ piece ∈ pieces, Glyph.char '/' ∉ piece) ∧ ∀ piece ∈ pieces.head?, piece = [] := by
  obtain ⟨rest, -, hrest⟩ := pieces_of_isAbsolute hp
  refine ⟨fun piece hpiece => not_mem_of_mem_splitOn (hstart.mem hpiece), fun piece hpiece => ?_⟩
  obtain ⟨more, hmore⟩ := hstart
  cases pieces with
  | nil => cases hpiece
  | cons first kept =>
    cases hpiece
    rw [hrest] at hmore
    exact (List.cons.inj hmore).1

theorem trimmed_pieces (hp : p.isAbsolute = true) :
    (∀ piece ∈ p.pieces.rdropWhile isIdle, Glyph.char '/' ∉ piece) ∧
      ∀ piece ∈ (p.pieces.rdropWhile isIdle).head?, piece = [] := by
  have hstart := List.rdropWhile_prefix isIdle p.pieces
  exact first_pieces hp hstart

theorem steps_trimmed (hp : p.isAbsolute = true) : p.trimmed.steps = p.steps := by
  obtain ⟨hslash, hhead⟩ := trimmed_pieces hp
  rw [trimmed, steps_ofPieces hslash hhead, filter_rdropWhile, steps]

/-- The directory of a path lacks its last step. -/
theorem steps_parent (hp : p.isAbsolute = true) : p.parent.steps = p.steps.dropLast := by
  have hkept := List.rdropWhile_prefix isIdle p.pieces
  have hinit := List.dropLast_prefix (p.pieces.rdropWhile isIdle)
  have hstart := List.rdropWhile_prefix isIdle (p.pieces.rdropWhile isIdle).dropLast
  obtain ⟨hslash, hhead⟩ := first_pieces hp ((hstart.trans hinit).trans hkept)
  rw [parent, steps_ofPieces hslash hhead, filter_rdropWhile, steps, ← filter_rdropWhile p.pieces]
  by_cases hne : p.pieces.rdropWhile isIdle = []
  · rw [hne]
    rfl
  · have hlast := List.rdropWhile_last_not isIdle p.pieces hne
    generalize p.pieces.rdropWhile isIdle = kept at hne hlast
    conv => rhs; rw [← List.dropLast_append_getLast hne]
    rw [List.filter_append, List.filter_cons_of_pos (by simpa using hlast), List.filter_nil, List.dropLast_concat]

theorem isAbsolute_trimmed (hp : p.isAbsolute = true) : p.trimmed.isAbsolute = true :=
  isAbsolute_ofPieces (trimmed_pieces hp).2

theorem same_trimmed (hp : p.isAbsolute = true) : p.trimmed.same p = true := by
  rw [same_iff_steps (isAbsolute_trimmed hp) hp, steps_trimmed hp]

theorem tidied_pieces (p : Path) : ∀ piece ∈ [] :: p.steps, Glyph.char '/' ∉ piece := by
  intro piece hpiece
  rcases List.mem_cons.mp hpiece with rfl | hpiece
  · exact List.not_mem_nil
  · exact not_mem_of_mem_splitOn (List.mem_of_mem_filter hpiece)

theorem steps_tidied (p : Path) : p.tidied.steps = p.steps := by
  rw [tidied, steps_ofPieces p.tidied_pieces (fun piece hpiece => by cases hpiece; rfl)]
  rw [List.filter_cons_of_neg (by decide), steps, List.filter_filter]
  simp

theorem tidied_of_same (hp : p.isAbsolute = true) (hq : q.isAbsolute = true) (hsame : p.same q = true) :
    p.tidied = q.tidied := by
  rw [tidied, tidied, (same_iff_steps hp hq).mp hsame]

theorem parent_child (dir : Path) {name : Raw} (hname : (⟨name⟩ : Path).isAbsolute = false) {step : Raw}
    (hstep : (⟨name⟩ : Path).steps = [step]) : (dir.child name).parent = dir.trimmed := by
  obtain ⟨before, hpieces, hbefore⟩ := FileTree.pieces_child dir hname
  -- Around the one step of the name there are only idle pieces.
  obtain ⟨left, right, hsplit, hleft, hcounts, hright⟩ := List.filter_eq_cons_iff.mp hstep
  have hidle : ∀ piece ∈ left, isIdle piece = true := fun piece hpiece => by simpa using hleft piece hpiece
  have hidle' : ∀ piece ∈ right, isIdle piece = true := fun piece hpiece => by
    simpa using List.filter_eq_nil_iff.mp hright piece hpiece
  have hend : (dir.child name).pieces.rdropWhile isIdle = before ++ left ++ [step] := by
    rw [hpieces, hsplit, ← List.append_assoc, rdropWhile_append_cons _ (by simpa using hcounts)]
    rw [← List.nil_append right, rdropWhile_append_of_all [] hidle', List.rdropWhile_nil]
  rw [parent, trimmed, hend, List.dropLast_concat, rdropWhile_append_of_all _ hidle]
  rcases hbefore with rfl | hbefore
  · rfl
  · rw [← hbefore, List.rdropWhile_concat_pos _ _ _ (by rfl)]

theorem trimmed_prefix_parent (dir : Path) {name : Raw} (hname : (⟨name⟩ : Path).isAbsolute = false)
    (hsteps : (⟨name⟩ : Path).steps ≠ []) :
    dir.pieces.rdropWhile isIdle <+: ((dir.child name).pieces.rdropWhile isIdle).dropLast.rdropWhile isIdle := by
  obtain ⟨before, hpieces, hbefore⟩ := FileTree.pieces_child dir hname
  have hkept : (⟨name⟩ : Path).pieces.rdropWhile isIdle ≠ [] := by
    intro hnone
    rw [steps, ← filter_rdropWhile, hnone] at hsteps
    exact hsteps rfl
  have hsame : before.rdropWhile isIdle = dir.pieces.rdropWhile isIdle := by
    rcases hbefore with rfl | hbefore
    · rfl
    · rw [← hbefore, List.rdropWhile_concat_pos _ _ _ (by rfl)]
  rw [hpieces, rdropWhile_append_of_ne_nil before hkept, List.dropLast_append_of_ne_nil hkept, ← hsame]
  exact rdropWhile_prefix_append _ _

/-! ## Pieces in lower case -/

/-- A part of a path as it is shown, in lower case. -/
def lower (piece : Raw) : List Char := piece.map fun glyph => glyph.shown.toLower

/-- The pieces of a path, in lower case. -/
def lowered (p : Path) : List (List Char) := p.pieces.map lower

theorem toLower_beq {x : Char} (hx : x = '/' ∨ x = '.') (c : Char) : (c.toLower == x) = (c == x) := by
  have hvalue : x.toNat = 47 ∨ x.toNat = 46 := by
    rcases hx with rfl | rfl
    · exact .inl rfl
    · exact .inr rfl
  rw [Bool.eq_iff_iff, beq_iff_eq, beq_iff_eq]
  by_cases hupper : c.val ≥ 'A'.val ∧ c.val ≤ 'Z'.val
  · have hrange : 65 ≤ c.toNat ∧ c.toNat ≤ 90 := hupper
    have hval : c.toLower.val = c.val + 32 := congrArg Char.val (dif_pos hupper)
    constructor
    · intro hlower
      have hsum : (c.val + 32).toNat = x.toNat := by rw [← hval, hlower, Char.toNat]
      have hc : c.val.toNat = c.toNat := rfl
      have hshift : (32 : UInt32).toNat = 32 := rfl
      rw [UInt32.toNat_add] at hsum
      omega
    · rintro rfl
      omega
  · have hsame : c.toLower = c := dif_neg hupper
    rw [hsame]

/-- What is no character is not shown as a slash or a dot. -/
theorem shown_toLower_beq {x : Char} (hx : x = '/' ∨ x = '.') (glyph : Glyph) :
    (glyph.shown.toLower == x) = (glyph == .char x) := by
  cases glyph with
  | char c =>
    rw [Glyph.shown, toLower_beq hx, Bool.eq_iff_iff, beq_iff_eq, beq_iff_eq, Glyph.char.injEq]
  | stray bytes =>
    rw [Glyph.shown]
    rcases hx with rfl | rfl
    · rfl
    · rfl

theorem lower_spelling (p : Path) : p.text.toList.map Char.toLower = lower p.spelling := by
  rw [text, Raw.text, String.toList_ofList, List.map_map, lower]
  rfl

theorem splitOn_lower (p : Path) : (p.text.toList.map Char.toLower).splitOn '/' = p.lowered := by
  rw [lower_spelling]
  exact splitOn_map (shown_toLower_beq (.inl rfl)) p.spelling

theorem isIdle_iff_lower (piece : Raw) : isIdle piece = true ↔ lower piece = [] ∨ lower piece = ['.'] := by
  have hdot : ∀ glyph : Glyph, glyph.shown.toLower = '.' ↔ glyph = .char '.' := by
    intro glyph
    rw [← beq_iff_eq, shown_toLower_beq (.inr rfl), beq_iff_eq]
  rw [isIdle, lower]
  simp [List.map_eq_singleton_iff, hdot]

/-- The piece leads somewhere, in lower case. -/
def counts (piece : List Char) : Bool := !(piece.isEmpty || piece == ['.'])

theorem counts_lower (piece : Raw) : counts (lower piece) = !isIdle piece := by
  rw [counts, Bool.eq_iff_iff, Bool.not_eq_true', Bool.not_eq_true', Bool.eq_false_iff, Bool.eq_false_iff, ne_eq, ne_eq,
    isIdle_iff_lower, Bool.or_eq_true, List.isEmpty_iff, beq_iff_eq]

theorem lowered_filter (p : Path) : p.lowered.filter counts = p.steps.map lower := by
  rw [lowered, List.filter_map, steps]
  simp only [Function.comp_def, counts_lower]

theorem text_lower_eq_iff (p : Path) (text : List Char) :
    p.text.toList.map Char.toLower = text ↔ p.lowered = text.splitOn '/' := by
  rw [← splitOn_lower]
  constructor
  · rintro rfl
    rfl
  · intro hsplit
    have hjoin : ['/'].intercalate ((p.text.toList.map Char.toLower).splitOn '/') = p.text.toList.map Char.toLower :=
      List.intercalate_splitOn '/'
    rw [← hjoin, hsplit, List.intercalate_splitOn]

end

end Path

namespace FileTree

open Bringup.Path (isIdle)

variable {t : FileTree} {cwd : Place}

theorem walk_of_idle {place r : Place} {pieces : List Raw} (hne : pieces ≠ [])
    (hidle : ∀ piece ∈ pieces, isIdle piece = true) (h : t.walk place pieces = .ok r) :
    r = place ∧ t.get? place = some .directory := by
  induction pieces with
  | nil => exact absurd rfl hne
  | cons piece pieces ih =>
    have hpiece := hidle piece List.mem_cons_self
    cases pieces with
    | nil =>
      rw [walk, ← isIdle, if_pos hpiece] at h
      cases hneed : t.needDirectory place with
      | error e =>
        rw [hneed] at h
        cases h
      | ok u =>
        rw [hneed] at h
        cases h
        exact ⟨rfl, needDirectory_ok hneed⟩
    | cons next pieces =>
      rw [walk_idle t place hpiece (List.cons_ne_nil _ _)] at h
      exact ih (List.cons_ne_nil _ _) (fun piece hpiece => hidle piece (List.mem_cons_of_mem _ hpiece)) h

/-- A name without steps leads to a directory. -/
theorem steps_ne_nil_of_isFile {dir : Path} {name : Raw} (hname : (⟨name⟩ : Path).isAbsolute = false)
    (hfile : t.isFile cwd (dir.child name) = true) : (⟨name⟩ : Path).steps ≠ [] := by
  intro hnone
  obtain ⟨place, hplace⟩ := hasFile_of_isFile hfile
  obtain ⟨start, hwalk⟩ := resolve_child_ok hname hplace.resolve
  have hidle : ∀ piece ∈ (⟨name⟩ : Path).pieces, isIdle piece = true := by
    simpa [Path.steps] using hnone
  obtain ⟨rfl, hdirectory⟩ := walk_of_idle (List.splitOn_ne_nil _ _) hidle hwalk
  exact hplace.not_directory hdirectory

end FileTree

namespace InstallSource

open Bringup.Path (counts isIdle lower)

/-! ## What a directory tells -/

theorem occursIn_iff (needle text : List Char) : occursIn needle text = true ↔ needle <:+: text := by
  induction text with
  | nil => rw [occursIn, List.isEmpty_iff, List.infix_nil]
  | cons c text ih => rw [occursIn, Bool.or_eq_true, List.isPrefixOf_iff_prefix, ih, List.infix_cons_iff]

/-- A word occurs in one of the steps, in either case. -/
def tells (word : String) (steps : List Raw) : Bool := steps.any fun step => occursIn word.toList (lower step)

/-- The directories of the system's own programs, as they are spelled. -/
def isSystem (dir : Path) : Bool :=
  dir.text.toList.map Char.toLower == "/usr/bin".toList || dir.text.toList.map Char.toLower == "/bin".toList

/-- The directories below the system's place for other programs, as they are spelled. -/
def isLocal (dir : Path) : Bool := "/usr/local".toList.isPrefixOf (dir.text.toList.map Char.toLower)

theorem occursIn_lower {word : String} (hslash : '/' ∉ word.toList) (hlong : 1 < word.toList.length) (dir : Path) :
    occursIn word.toList (dir.text.toList.map Char.toLower) = tells word dir.steps := by
  have hidle : ∀ piece : Raw, isIdle piece = true → ¬ word.toList <:+: lower piece := by
    intro piece hpiece hword
    have hlength := hword.length_le
    rcases (Path.isIdle_iff_lower piece).mp hpiece with hempty | hdot
    · rw [hempty, List.length_nil] at hlength
      omega
    · rw [hdot, List.length_singleton] at hlength
      omega
  rw [Bool.eq_iff_iff, occursIn_iff, infix_iff_splitOn hslash, Path.splitOn_lower, tells, List.any_eq_true]
  constructor
  · rintro ⟨shown, hshown, hword⟩
    obtain ⟨piece, hpiece, rfl⟩ := List.mem_map.mp hshown
    have hstep : piece ∈ dir.steps := List.mem_filter.mpr ⟨hpiece, by simpa using fun h => hidle piece h hword⟩
    exact ⟨piece, hstep, (occursIn_iff _ _).mpr hword⟩
  · rintro ⟨step, hmem, hoccurs⟩
    exact ⟨_, List.mem_map_of_mem (List.mem_of_mem_filter hmem), (occursIn_iff _ _).mp hoccurs⟩

/-- Two of the tests only look at the steps. -/
theorem ofDirectory_eq (dir : Path) :
    ofDirectory dir =
      if tells ".local" dir.steps then .userLocal
      else if tells "homebrew" dir.steps || tells "linuxbrew" dir.steps then .packageManager "brew"
      else if isSystem dir then .packageManager "system"
      else if isLocal dir then .systemPath
      else .manual := by
  rw [← occursIn_lower (by decide) (by decide), ← occursIn_lower (by decide) (by decide),
    ← occursIn_lower (by decide) (by decide)]
  rfl

theorem isSystem_iff (dir : Path) :
    isSystem dir = true ↔
      dir.lowered = [[], ['u', 's', 'r'], ['b', 'i', 'n']] ∨ dir.lowered = [[], ['b', 'i', 'n']] := by
  rw [isSystem, Bool.or_eq_true, beq_iff_eq, beq_iff_eq, Path.text_lower_eq_iff, Path.text_lower_eq_iff]
  rfl

theorem isLocal_iff (dir : Path) :
    isLocal dir = true ↔
      ∃ more rest, dir.lowered = [] :: ['u', 's', 'r'] :: (['l', 'o', 'c', 'a', 'l'] ++ more) :: rest := by
  rw [isLocal, List.isPrefixOf_iff_prefix]
  constructor
  · rintro ⟨text, htext⟩
    cases hsplit : text.splitOn '/' with
    | nil => exact absurd hsplit (List.splitOn_ne_nil _ _)
    | cons more rest =>
      refine ⟨more, rest, ?_⟩
      rw [← Path.splitOn_lower, ← htext]
      simp [List.splitOn_cons_eq_if_modifyHead, hsplit]
  · rintro ⟨more, rest, hlowered⟩
    have hjoin : ['/'].intercalate ((dir.text.toList.map Char.toLower).splitOn '/') = dir.text.toList.map Char.toLower :=
      List.intercalate_splitOn '/'
    rw [← hjoin, Path.splitOn_lower, hlowered]
    cases rest with
    | nil => exact ⟨more, by simp [List.intercalate_cons_cons]⟩
    | cons next rest => exact ⟨more ++ '/' :: ['/'].intercalate (next :: rest), by simp [List.intercalate_cons_cons]⟩

/-! ## Spellings of a directory -/

section

variable {dir p q : Path}

theorem pieces_of_lowered {words : List (List Char)} (hlowered : dir.lowered = [] :: words)
    (hwords : ∀ word ∈ words, counts word = true) : dir.pieces = [] :: dir.steps := by
  obtain ⟨first, rest, hpieces, hfirst, rfl⟩ := List.map_eq_cons_iff.mp hlowered
  obtain rfl := List.map_eq_nil_iff.mp hfirst
  have hcount : ∀ piece ∈ rest, (!isIdle piece) = true := by
    intro piece hpiece
    rw [← Path.counts_lower, hwords _ (List.mem_map_of_mem hpiece)]
  rw [Path.steps, hpieces, List.filter_cons_of_neg (by decide), List.filter_eq_self.mpr hcount]

theorem pieces_of_isSystem (hsystem : isSystem dir = true) :
    dir.pieces = [] :: dir.steps ∧ 1 < dir.pieces.length := by
  have hlength : dir.lowered.length = dir.pieces.length := List.length_map _
  rcases (isSystem_iff dir).mp hsystem with husr | hbin
  · exact ⟨pieces_of_lowered husr (by decide), by rw [← hlength, husr]; decide⟩
  · exact ⟨pieces_of_lowered hbin (by decide), by rw [← hlength, hbin]; decide⟩

theorem tidied_of_isSystem (hsystem : isSystem dir = true) : dir.tidied = dir := by
  obtain ⟨hpieces, hlength⟩ := pieces_of_isSystem hsystem
  rw [Path.tidied, ← hpieces, Path.ofPieces_pieces hlength]

theorem trimmed_of_isSystem (hsystem : isSystem dir = true) : dir.trimmed = dir := by
  obtain ⟨hpieces, hlength⟩ := pieces_of_isSystem hsystem
  have hkept : dir.pieces.rdropWhile isIdle = dir.pieces := by
    rw [List.rdropWhile_eq_self_iff]
    intro hne
    have hsteps : dir.steps ≠ [] := by
      intro hnil
      rw [hpieces, hnil] at hlength
      exact Nat.lt_irrefl 1 hlength
    have hlast : dir.pieces.getLast hne = dir.steps.getLast hsteps := by
      simp only [hpieces, List.getLast_cons hsteps]
    have hmem := List.getLast_mem hsteps
    rw [hlast]
    simpa using (List.mem_filter.mp hmem).2
  rw [Path.trimmed, hkept, Path.ofPieces_pieces hlength]

theorem isLocal_tidied (hlocal : isLocal dir = true) : isLocal dir.tidied = true := by
  obtain ⟨more, rest, hlowered⟩ := (isLocal_iff dir).mp hlocal
  have hsteps := dir.lowered_filter
  rw [hlowered, List.filter_cons_of_neg (by decide), List.filter_cons_of_pos (by decide),
    List.filter_cons_of_pos (by rfl)] at hsteps
  have hlength := congrArg List.length hsteps
  rw [List.length_map, List.length_cons] at hlength
  have hlong : 1 < ([] :: dir.steps).length := by
    rw [List.length_cons, ← hlength]
    omega
  rw [isLocal_iff, Path.lowered, Path.tidied, Path.pieces_ofPieces dir.tidied_pieces hlong, List.map_cons, ← hsteps]
  exact ⟨more, _, rfl⟩

theorem long_of_isLocal (hlocal : isLocal dir.trimmed = true) : 1 < (dir.pieces.rdropWhile isIdle).length := by
  by_contra hshort
  rw [Path.trimmed, Path.ofPieces, if_pos (by omega)] at hlocal
  revert hlocal
  decide

theorem isLocal_trimmed (hdir : dir.isAbsolute = true) : isLocal dir.trimmed = isLocal dir := by
  obtain ⟨hslash, -⟩ := Path.trimmed_pieces hdir
  rw [Bool.eq_iff_iff]
  constructor
  · intro hlocal
    have hlong := long_of_isLocal hlocal
    obtain ⟨more, rest, hlowered⟩ := (isLocal_iff _).mp hlocal
    rw [Path.lowered, Path.trimmed, Path.pieces_ofPieces hslash hlong] at hlowered
    rw [isLocal_iff, Path.lowered, ← List.rdropWhile_append_rtakeWhile (p := isIdle) (l := dir.pieces),
      List.map_append, hlowered]
    exact ⟨more, _, rfl⟩
  · intro hlocal
    obtain ⟨more, rest, hlowered⟩ := (isLocal_iff dir).mp hlocal
    obtain ⟨first, rest', hpieces, hfirst, hrest⟩ := List.map_eq_cons_iff.mp hlowered
    obtain ⟨second, rest'', rfl, hsecond, hrest⟩ := List.map_eq_cons_iff.mp hrest
    obtain ⟨third, rest, rfl, hthird, rfl⟩ := List.map_eq_cons_iff.mp hrest
    have hcounts : isIdle third = false := by
      rw [← Bool.not_eq_true', ← Path.counts_lower, hthird]
      rfl
    have hkept : dir.pieces.rdropWhile isIdle = first :: second :: third :: rest.rdropWhile isIdle := by
      rw [hpieces]
      exact rdropWhile_append_cons [first, second] hcounts rest
    rw [hkept] at hslash
    rw [isLocal_iff, Path.lowered, Path.trimmed, hkept, Path.pieces_ofPieces hslash (by simp), List.map_cons,
      List.map_cons, List.map_cons, hfirst, hsecond, hthird]
    exact ⟨more, _, rfl⟩

/-- The directory of a path lies below the directory that was searched. -/
theorem isLocal_parent_child (hdir : dir.isAbsolute = true) {name : Raw} (hname : (⟨name⟩ : Path).isAbsolute = false)
    (hsteps : (⟨name⟩ : Path).steps ≠ []) (hlocal : isLocal dir = true) :
    isLocal (dir.child name).parent = true := by
  have htrimmed : isLocal dir.trimmed = true := (isLocal_trimmed hdir).trans hlocal
  have hlong := long_of_isLocal htrimmed
  obtain ⟨more, hmore⟩ := Path.trimmed_prefix_parent dir hname hsteps
  have hne : dir.pieces.rdropWhile isIdle ≠ [] := by
    intro hnone
    rw [hnone] at hlong
    exact Nat.not_lt_zero _ hlong
  have hspelling : dir.trimmed.spelling <+: (dir.child name).parent.spelling := by
    rw [Path.trimmed, Path.parent, ← hmore, Path.ofPieces, Path.ofPieces, if_neg (by omega),
      if_neg (by rw [List.length_append]; omega)]
    exact intercalate_prefix_append hne more
  rw [isLocal, List.isPrefixOf_iff_prefix, Path.lower_spelling] at htrimmed ⊢
  exact htrimmed.trans (hspelling.map _)

theorem steps_of_isSystem (hsystem : isSystem dir = true) :
    dir.steps.map lower = [['u', 's', 'r'], ['b', 'i', 'n']] ∨ dir.steps.map lower = [['b', 'i', 'n']] := by
  rw [← dir.lowered_filter]
  rcases (isSystem_iff dir).mp hsystem with husr | hbin
  · rw [husr]
    exact .inl (by decide)
  · rw [hbin]
    exact .inr (by decide)

theorem not_isSystem_inside {extra : List Raw} (hsteps : q.steps = p.steps ++ extra) (hextra : extra ≠ [])
    (hsystem : isSystem p = true) : ¬ isSystem q = true := by
  intro hinside
  have hmap : q.steps.map lower = p.steps.map lower ++ extra.map lower := by rw [hsteps, List.map_append]
  rcases steps_of_isSystem hsystem with hp | hp <;> rcases steps_of_isSystem hinside with hq | hq <;>
    simp [hp, hq, hextra] at hmap

theorem not_isSystem_of_isLocal (hlocal : isLocal dir = true) : ¬ isSystem dir = true := by
  obtain ⟨more, rest, hlowered⟩ := (isLocal_iff dir).mp hlocal
  rw [isSystem_iff, hlowered]
  simp

theorem isSystem_of_ofDirectory (hsource : ofDirectory dir = .packageManager "system") : isSystem dir = true := by
  by_contra hother
  rw [ofDirectory_eq, if_neg hother] at hsource
  revert hsource
  split_ifs <;> decide

theorem isLocal_of_ofDirectory (hsource : ofDirectory dir = .systemPath) : isLocal dir = true := by
  by_contra hother
  rw [ofDirectory_eq, if_neg hother] at hsource
  revert hsource
  split_ifs <;> decide

/-- Two spellings of a directory, of which the second tells at least as much, tell the same source. -/
theorem ofDirectory_eq_iff (hsteps : p.steps = q.steps) (hsystem : isSystem p = true → q = p)
    (hlocal : isLocal p = true → isLocal q = true) :
    ofDirectory p = ofDirectory q ↔
      (ofDirectory q = .packageManager "system" → q = p) ∧ (ofDirectory q = .systemPath → isLocal p = true) := by
  constructor
  · intro hsource
    refine ⟨fun hq => hsystem (isSystem_of_ofDirectory (hsource.trans hq)), fun hq => ?_⟩
    exact isLocal_of_ofDirectory (hsource.trans hq)
  · rintro ⟨hfirst, hsecond⟩
    -- The words are found in both or in neither, so only the two tests of the spelling can tell them apart.
    by_cases hsame : q = p
    · rw [hsame]
    have hp : ¬ isSystem p = true := fun h => hsame (hsystem h)
    have hq : ofDirectory q ≠ .packageManager "system" := fun h => hsame (hfirst h)
    rw [ofDirectory_eq p, hsteps, if_neg hp]
    by_cases huser : tells ".local" q.steps = true
    · rw [ofDirectory_eq q, if_pos huser, if_pos huser]
    by_cases hbrew : (tells "homebrew" q.steps || tells "linuxbrew" q.steps) = true
    · rw [ofDirectory_eq q, if_neg huser, if_neg huser, if_pos hbrew, if_pos hbrew]
    rw [ofDirectory_eq q, if_neg huser, if_neg hbrew] at hq hsecond ⊢
    have hother : ¬ isSystem q = true := fun h => hq (if_pos h)
    rw [if_neg hother] at hsecond ⊢
    by_cases hq' : isLocal q = true
    · rw [if_neg huser, if_neg hbrew, if_pos hq', if_pos (hsecond (if_pos hq'))]
    · rw [if_neg huser, if_neg hbrew, if_neg hq', if_neg fun h => hq' (hlocal h)]

/-- A directory further inside, after some steps, tells what the outer one does, unless the outer one is one of the
system's own, the steps tell more, or they lead into a directory of the system from one that tells nothing. -/
theorem ofDirectory_inside {extra : List Raw} (hsteps : q.steps = p.steps ++ extra) (hextra : extra ≠ [])
    (hlocal : isLocal p = true → isLocal q = true) :
    ofDirectory p = ofDirectory q ↔
      ofDirectory p ≠ .packageManager "system" ∧
      (tells ".local" extra = true → ofDirectory p = .userLocal) ∧
      ((tells "homebrew" extra || tells "linuxbrew" extra) = true →
        ofDirectory p = .userLocal ∨ ofDirectory p = .packageManager "brew") ∧
      (ofDirectory p = .manual → isSystem q = false ∧ isLocal q = false) := by
  have htells : ∀ word, tells word q.steps = (tells word p.steps || tells word extra) := by
    intro word
    rw [hsteps, tells, List.any_append]
    rfl
  rw [ofDirectory_eq p, ofDirectory_eq q, htells, htells, htells]
  by_cases huser : tells ".local" p.steps = true
  · simp [huser]
  by_cases hbrew : (tells "homebrew" p.steps || tells "linuxbrew" p.steps) = true
  · have hmore : (tells "homebrew" p.steps || tells "homebrew" extra
        || (tells "linuxbrew" p.steps || tells "linuxbrew" extra)) = true := by
      rcases Bool.or_eq_true_iff.mp hbrew with h | h <;> simp [h]
    rw [if_neg huser, if_pos hbrew, if_pos hmore]
    cases tells ".local" extra <;> simp [huser]
  obtain ⟨hhome, hlinux⟩ : tells "homebrew" p.steps = false ∧ tells "linuxbrew" p.steps = false := by
    simpa using hbrew
  rw [if_neg huser, if_neg hbrew, Bool.eq_false_iff.mpr huser, hhome, hlinux, Bool.false_or, Bool.false_or,
    Bool.false_or]
  by_cases hsystem : isSystem p = true
  · rw [if_pos hsystem, if_neg (not_isSystem_inside hsteps hextra hsystem)]
    split_ifs <;> simp
  rw [if_neg hsystem]
  by_cases hplace : isLocal p = true
  · rw [if_pos hplace, if_neg (not_isSystem_of_isLocal (hlocal hplace)), if_pos (hlocal hplace)]
    split_ifs <;> simp [*]
  · rw [if_neg hplace]
    split_ifs <;> simp [*]

/-- The end of a spelling only matters for the system's own directories. -/
theorem ofDirectory_trimmed (hdir : dir.isAbsolute = true) :
    ofDirectory dir = ofDirectory dir.trimmed ↔
      (ofDirectory dir.trimmed = .packageManager "system" → dir.trimmed = dir) := by
  have hlocal := isLocal_trimmed hdir
  rw [ofDirectory_eq_iff (Path.steps_trimmed hdir).symm trimmed_of_isSystem fun h => hlocal.trans h]
  exact and_iff_left fun hsource => hlocal ▸ isLocal_of_ofDirectory hsource

theorem ofDirectory_tidied (dir : Path) :
    ofDirectory dir = ofDirectory dir.tidied ↔
      (ofDirectory dir.tidied = .packageManager "system" → dir.tidied = dir) ∧
        (ofDirectory dir.tidied = .systemPath → isLocal dir = true) :=
  ofDirectory_eq_iff dir.steps_tidied.symm tidied_of_isSystem isLocal_tidied

end

end InstallSource

namespace ToolSearch

open Bringup.InstallSource (ofDirectory tells)

/-! ## What is reported -/

theorem foundIn_of_isAbsolute {policy : Policy} {name : String} {h : Host} {dir : Path}
    (hname : (⟨name⟩ : Path).isAbsolute = true) (hfound : foundIn policy name h = some dir) :
    (directories policy h.searchPath h.home).head? = some dir := by
  have hfile := List.find?_some hfound
  rw [foundIn] at hfound
  cases hdirs : directories policy h.searchPath h.home with
  | nil =>
    rw [hdirs] at hfound
    cases hfound
  | cons first rest =>
    rw [dir.child_of_isAbsolute hname] at hfile
    rw [hdirs, List.find?_cons, first.child_of_isAbsolute hname, hfile] at hfound
    exact hfound

theorem isAbsolute_of_foundIn {policy : Policy} {name : String} {h : Host} {dir : Path}
    (hfound : foundIn policy name h = some dir) : dir.isAbsolute = true :=
  isAbsolute_of_mem_directories (List.mem_of_find?_eq_some hfound)

theorem Lookup.Fresh.exists_foundIn {policy : Policy} {l : Lookup} (hfresh : l.Fresh policy)
    (havailable : l.status.available = true) :
    ∃ dir, foundIn policy l.name l.before = some dir ∧ l.status.path = some (dir.child l.name) ∧
      l.status.source = ofDirectory dir := by
  obtain ⟨n, -, -, hstatus⟩ := hfresh
  rw [hstatus, available_finding] at havailable
  obtain ⟨dir, hdir⟩ := Option.isSome_iff_exists.mp havailable
  refine ⟨dir, hdir, ?_⟩
  rw [hstatus, finding, hdir]
  exact ⟨rfl, rfl⟩

/-- The source that is reported is that of the directory that was searched. For a plain name this is the directory of
the path that is reported, and its source is reported unless the search path spells it with more than is needed. A name
of several steps leads further inside, where the source may be another. For a name that is an absolute path it is the
first directory of all, wherever the path leads. -/
theorem source_is_of_searched_directory (policy : Policy) (past : List (Request × Host)) (name : String) (h : Host) :
    ∃ status d' h', ((detect name).run (Detector.after { policy } past)).run h = ((status, d'), h') ∧
      (status.available = true →
        ∃ l ∈ Detector.history { policy } past ++ [⟨name, h, status, h'⟩], l.name = name ∧ l.status = status ∧
        ∃ dir p, foundIn policy name l.before = some dir ∧ status.path = some p ∧ p = dir.child name ∧
          status.source = ofDirectory dir ∧
          ((⟨name⟩ : Path).isAbsolute = false → (⟨name⟩ : Path).steps.length = 1 →
            p.parent.same dir = true ∧
            (status.source = ofDirectory p.parent ↔
              (ofDirectory p.parent = .packageManager "system" → p.parent = dir)) ∧
            ∀ e : Path, e.isAbsolute = true → e.same dir = true →
              (ofDirectory e = ofDirectory p.parent.tidied ↔
                (ofDirectory p.parent.tidied = .packageManager "system" → p.parent.tidied = e) ∧
                (ofDirectory p.parent.tidied = .systemPath → InstallSource.isLocal e = true))) ∧
          ((⟨name⟩ : Path).isAbsolute = false →
            (⟨name⟩ : Path).steps ≠ [] ∧ p.parent.steps = dir.steps ++ (⟨name⟩ : Path).steps.dropLast) ∧
          ((⟨name⟩ : Path).isAbsolute = false → 1 < (⟨name⟩ : Path).steps.length →
            (status.source = ofDirectory p.parent ↔
              ofDirectory dir ≠ .packageManager "system" ∧
              (tells ".local" (⟨name⟩ : Path).steps.dropLast = true → ofDirectory dir = .userLocal) ∧
              ((tells "homebrew" (⟨name⟩ : Path).steps.dropLast || tells "linuxbrew" (⟨name⟩ : Path).steps.dropLast) =
                  true → ofDirectory dir = .userLocal ∨ ofDirectory dir = .packageManager "brew") ∧
              (ofDirectory dir = .manual →
                InstallSource.isSystem p.parent = false ∧ InstallSource.isLocal p.parent = false)) ∧
            ∀ e : Path, e.isAbsolute = true → e.same dir = true →
              (ofDirectory e = ofDirectory dir.tidied ↔
                (ofDirectory dir.tidied = .packageManager "system" → dir.tidied = e) ∧
                (ofDirectory dir.tidied = .systemPath → InstallSource.isLocal e = true))) ∧
          ((⟨name⟩ : Path).isAbsolute = true →
            p = ⟨name⟩ ∧ (directories policy l.before.searchPath l.before.home).head? = some dir)) := by
  have hrecorded := recorded_session (recorded_new policy) past
  rw [List.nil_append] at hrecorded
  obtain ⟨status, d', h', hrun, -⟩ := answered_detect (Detector.after { policy } past) name h
  refine ⟨status, d', h', hrun, fun havailable => ?_⟩
  obtain ⟨l, hl, hname, hstatus, hfresh⟩ : ∃ l ∈ Detector.history { policy } past ++ [⟨name, h, status, h'⟩],
      l.name = name ∧ l.status = status ∧ l.Fresh policy := by
    rcases (recorded_detect hrecorded hrun).2 with hfresh | ⟨-, ⟨l, hl, hname, hstatus, hfresh⟩, -⟩
    · exact ⟨_, List.mem_append_right _ (List.mem_singleton_self _), rfl, rfl, hfresh⟩
    · exact ⟨l, List.mem_append_left _ hl, hname, hstatus, hfresh⟩
  obtain ⟨dir, hdir, hpath, hsource⟩ := hfresh.exists_foundIn (hstatus ▸ havailable)
  rw [hname] at hdir hpath
  rw [hstatus] at hpath hsource
  have habsolute := isAbsolute_of_foundIn hdir
  have hinside : (⟨name⟩ : Path).isAbsolute = false → (⟨name⟩ : Path).steps ≠ [] ∧
      (dir.child name).parent.steps = dir.steps ++ (⟨name⟩ : Path).steps.dropLast := by
    intro hrelative
    have hfile := List.find?_some hdir
    have hsteps : (⟨name⟩ : Path).steps ≠ [] := FileTree.steps_ne_nil_of_isFile hrelative hfile
    rw [Path.steps_parent (Path.isAbsolute_child habsolute name), Path.steps_child dir hrelative,
      List.dropLast_append_of_ne_nil hsteps]
    exact ⟨hsteps, rfl⟩
  refine ⟨l, hl, hname, hstatus, dir, _, hdir, hpath, rfl, hsource, fun hrelative hsteps => ?_, hinside,
    fun hrelative hsteps => ⟨?_, fun e he hlike => ?_⟩, fun hfull => ?_⟩
  · obtain ⟨step, hstep⟩ := List.length_eq_one_iff.mp hsteps
    have htrimmed := Path.isAbsolute_trimmed habsolute
    have hsame := Path.same_trimmed habsolute
    rw [Path.parent_child dir hrelative hstep, hsource]
    refine ⟨hsame, InstallSource.ofDirectory_trimmed habsolute, fun e he hlike => ?_⟩
    have htidied : dir.trimmed.tidied = e.tidied := by
      rw [Path.tidied_of_same htrimmed habsolute hsame, Path.tidied_of_same he habsolute hlike]
    rw [htidied]
    exact InstallSource.ofDirectory_tidied e
  · obtain ⟨hne, hparent⟩ := hinside hrelative
    have hmore : (⟨name⟩ : Path).steps.dropLast ≠ [] := by
      intro hnone
      have hlength := congrArg List.length hnone
      rw [List.length_dropLast, List.length_nil] at hlength
      omega
    rw [hsource]
    exact InstallSource.ofDirectory_inside hparent hmore (InstallSource.isLocal_parent_child habsolute hrelative hne)
  · rw [← Path.tidied_of_same he habsolute hlike]
    exact InstallSource.ofDirectory_tidied e
  · exact ⟨dir.child_of_isAbsolute hfull, foundIn_of_isAbsolute hfull hdir⟩

/-- A host with a tool of the system and a shell of a user. -/
def shellHost (searchPath : String) : Host where
  files := ⟨[(["usr"], .directory), (["usr", "bin"], .directory), (["usr", "bin", "git"], .program [] true),
    (["home"], .directory), (["home", ".local"], .directory), (["home", ".local", "zsh"], .program [] true)]⟩
  searchPath := some searchPath

/-- A shell that is a path is reported with the source of a directory that it is not in, and a slash at the end of a
directory hides its source. -/
theorem source_of_another_directory :
    (∃ status, ((detectNow {} "/home/.local/zsh").run (shellHost "/usr/bin")).1 = status ∧ status.available = true ∧
      status.path = some ⟨"/home/.local/zsh"⟩ ∧ status.source = .packageManager "system" ∧
      ofDirectory (⟨"/home/.local/zsh"⟩ : Path).parent = .userLocal) ∧
    ∃ status, ((detectNow {} "git").run (shellHost "/usr/bin/")).1 = status ∧ status.available = true ∧
      status.path = some ⟨"/usr/bin/git"⟩ ∧ status.source = .manual ∧
      ofDirectory (⟨"/usr/bin/git"⟩ : Path).parent = .packageManager "system" := by
  constructor
  · obtain ⟨n, h', -, -, hrun, -⟩ := run_detectNow {} "/home/.local/zsh" (shellHost "/usr/bin")
    have hfound : foundIn {} "/home/.local/zsh" (shellHost "/usr/bin") = some ⟨"/usr/bin"⟩ := by decide +kernel
    rw [hrun, finding, hfound]
    refine ⟨_, rfl, rfl, ?_⟩
    dsimp only
    decide +kernel
  · obtain ⟨n, h', -, -, hrun, -⟩ := run_detectNow {} "git" (shellHost "/usr/bin/")
    have hfound : foundIn {} "git" (shellHost "/usr/bin/") = some ⟨"/usr/bin/"⟩ := by decide +kernel
    rw [hrun, finding, hfound]
    refine ⟨_, rfl, rfl, ?_⟩
    dsimp only
    decide +kernel

end ToolSearch

end Bringup

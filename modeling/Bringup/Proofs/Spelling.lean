import Bringup.Proofs.StoredRecord

/-!
# Spellings of a path

Two absolute paths are the same if the same pieces count in both. What a spelling adds are pieces that lead nowhere:
empty ones, from repeated and trailing slashes, and dots.

* `Path.steps`: the pieces that count; `Path.same_iff_steps`: absolute paths are compared by them.
* `FileTree.isFile_child_of_same`: a file is found under every spelling of its directory, as long as the path is not too
  long.
* `infix_iff_splitOn`: what occurs in a text without its separator occurs in a piece.
-/

namespace Bringup

set_option autoImplicit false

open Bringup.Text (Glyph Raw)

/-! ## Pieces of a text -/

section

variable {α : Type} {x : α} {needle before after : List α}

theorem infix_append_cons_iff (hx : x ∉ needle) :
    needle <:+: before ++ x :: after ↔ needle <:+: before ∨ needle <:+: after := by
  constructor
  · rintro ⟨s, t, hsplit⟩
    rcases List.append_eq_append_iff.mp hsplit with ⟨u, hbefore, -⟩ | ⟨u, hleft, hright⟩
    · exact .inl ⟨s, u, hbefore.symm⟩
    · cases u with
      | nil => exact .inl ⟨s, [], by rw [hleft, List.append_nil, List.append_nil]⟩
      | cons y u =>
        obtain ⟨rfl, hafter⟩ := List.cons_eq_cons.mp hright
        -- The separator stands before the needle, or in it.
        rcases List.append_eq_append_iff.mp hleft with ⟨v, hv, hneedle⟩ | ⟨v, hv, hneedle⟩
        · exact absurd (hneedle ▸ List.mem_append_right v List.mem_cons_self) hx
        · cases v with
          | nil => exact absurd ((List.nil_append needle ▸ hneedle) ▸ List.mem_cons_self) hx
          | cons z v =>
            obtain ⟨-, hu⟩ := List.cons_eq_cons.mp hneedle
            refine .inr ⟨v, t, ?_⟩
            rw [hafter, hu]
            rfl
  · rintro (⟨s, t, rfl⟩ | ⟨s, t, rfl⟩)
    · exact ⟨s, t ++ x :: after, by simp⟩
    · exact ⟨before ++ x :: s, t, by simp⟩

theorem infix_iff_splitOn [BEq α] [LawfulBEq α] (hx : x ∉ needle) (text : List α) :
    needle <:+: text ↔ ∃ piece ∈ text.splitOn x, needle <:+: piece := by
  by_cases hmem : x ∈ text
  · obtain ⟨before, after, htext, hbefore⟩ := List.eq_append_cons_of_mem hmem
    have hshorter : after.length < text.length := by
      rw [htext, List.length_append, List.length_cons]
      omega
    have ih := infix_iff_splitOn hx after
    rw [htext, infix_append_cons_iff hx, ih, List.splitOn_append_cons_self, List.splitOn_eq_singleton hbefore]
    simp
  · rw [List.splitOn_eq_singleton hmem]
    simp
termination_by text.length

end

namespace Path

/-! ## Steps -/

/-- The piece leads nowhere. -/
def isIdle (piece : Raw) : Bool := piece.isEmpty || piece == [.char '.']

/-- The pieces that count. -/
def steps (p : Path) : List Raw := p.pieces.filter fun piece => !isIdle piece

/-- The component that a piece stands for when it counts. -/
def Component.ofPiece (piece : Raw) : Component :=
  if piece == [.char '.', .char '.'] then .parent else .normal piece

theorem Component.ofPiece_inj {a b : Raw} (h : ofPiece a = ofPiece b) : a = b := by
  unfold ofPiece at h
  split at h
  · next ha =>
    split at h
    · next hb => rw [beq_iff_eq.mp ha, beq_iff_eq.mp hb]
    · cases h
  · split at h
    · cases h
    · exact Component.normal.inj h

theorem component?_eq (piece : Raw) :
    component? piece = if isIdle piece then none else some (Component.ofPiece piece) := by
  unfold component? Component.ofPiece isIdle
  split
  · rfl
  · split <;> rfl

theorem filterMap_component? (pieces : List Raw) :
    pieces.filterMap component? = (pieces.filter fun piece => !isIdle piece).map Component.ofPiece := by
  induction pieces with
  | nil => rfl
  | cons piece pieces ih =>
    rw [List.filterMap_cons, component?_eq]
    by_cases hidle : isIdle piece = true
    · rw [if_pos hidle, List.filter_cons_of_neg (by simp [hidle]), ih]
    · rw [if_neg hidle, List.filter_cons_of_pos (by simp [hidle]), List.map_cons, ih]

theorem components_of_isAbsolute {p : Path} (hp : p.isAbsolute = true) :
    p.components = .root :: p.steps.map Component.ofPiece := by
  rw [components, if_pos hp, filterMap_component?, steps]

theorem same_iff {p q : Path} : p.same q = true ↔ p.components = q.components := by
  rw [same, beq_iff_eq]

theorem same_iff_steps {p q : Path} (hp : p.isAbsolute = true) (hq : q.isAbsolute = true) :
    p.same q = true ↔ p.steps = q.steps := by
  rw [same_iff, components_of_isAbsolute hp, components_of_isAbsolute hq]
  constructor
  · intro h
    exact List.map_inj_right (fun _ _ => Component.ofPiece_inj) |>.mp (List.cons_eq_cons.mp h).2
  · intro h
    rw [h]

theorem filter_before_child {before : List Raw} {dir : Path}
    (h : before = dir.pieces ∨ before ++ [[]] = dir.pieces) :
    (before.filter fun piece => !isIdle piece) = dir.steps := by
  rcases h with rfl | h
  · rfl
  · rw [steps, ← h, List.filter_append]
    exact (List.append_nil _).symm

theorem steps_child (dir : Path) {name : Raw} (hname : (⟨name⟩ : Path).isAbsolute = false) :
    (dir.child name).steps = dir.steps ++ (⟨name⟩ : Path).steps := by
  obtain ⟨before, hpieces, hbefore⟩ := FileTree.pieces_child dir hname
  rw [steps, hpieces, List.filter_append, filter_before_child hbefore]
  rfl

theorem child_of_isAbsolute (dir : Path) {name : Raw} (hname : (⟨name⟩ : Path).isAbsolute = true) :
    dir.child name = ⟨name⟩ := by
  rw [child, join, if_pos hname]

theorem isAbsolute_child {dir : Path} (hdir : dir.isAbsolute = true) (name : Raw) :
    (dir.child name).isAbsolute = true := by
  have hhead : dir.spelling.head? = some (.char '/') := eq_of_beq hdir
  rw [child, join]
  split
  · next hname => exact hname
  · rw [isAbsolute]
    split
    · rw [List.head?_append, hhead]
      rfl
    · rw [List.head?_append, hhead]
      rfl

theorem isEmpty_of_isAbsolute {p : Path} (hp : p.isAbsolute = true) : p.spelling.isEmpty = false := by
  rw [Bool.eq_false_iff]
  intro hempty
  rw [isAbsolute, List.isEmpty_iff.mp hempty] at hp
  cases hp

theorem same_child {dir dir' : Path} (hdir : dir.isAbsolute = true) (hdir' : dir'.isAbsolute = true)
    (hsame : dir.same dir' = true) (name : Raw) : (dir.child name).same (dir'.child name) = true := by
  by_cases hname : (⟨name⟩ : Path).isAbsolute = true
  · rw [child_of_isAbsolute dir hname, child_of_isAbsolute dir' hname, same_iff]
  · have hrelative := Bool.eq_false_iff.mpr hname
    rw [same_iff_steps (isAbsolute_child hdir name) (isAbsolute_child hdir' name), steps_child dir hrelative,
      steps_child dir' hrelative, (same_iff_steps hdir hdir').mp hsame]

end Path

/-! ## Where a path leads -/

namespace FileTree

open Bringup.Path (isIdle)

theorem needDirectory_walk (t : FileTree) (place : Place) {pieces : List Raw} (hpieces : pieces ≠ []) :
    (do t.needDirectory place; t.walk place pieces) = t.walk place pieces := by
  cases pieces with
  | nil => exact absurd rfl hpieces
  | cons piece pieces =>
    rw [walk]
    cases t.needDirectory place with
    | error e => rfl
    | ok u => rfl

/-- An idle piece on the way asks for a directory that the next piece asks for as well. -/
theorem walk_idle (t : FileTree) (place : Place) {piece : Raw} (hidle : isIdle piece = true)
    {pieces : List Raw} (hpieces : pieces ≠ []) : t.walk place (piece :: pieces) = t.walk place pieces := by
  rw [walk, ← isIdle, if_pos hidle]
  exact t.needDirectory_walk place hpieces

theorem walk_filter (t : FileTree) (place : Place) (pieces : List Raw) {rest : List Raw}
    (hrest : rest ≠ []) :
    t.walk place (pieces ++ rest) = t.walk place ((pieces.filter fun piece => !isIdle piece) ++ rest) := by
  have hmore : ∀ pieces : List Raw, pieces ++ rest ≠ [] := by simp [hrest]
  induction pieces generalizing place with
  | nil => rfl
  | cons piece pieces ih =>
    by_cases hidle : isIdle piece = true
    · rw [List.filter_cons_of_neg (by simp [hidle]), ← ih place]
      exact t.walk_idle place hidle (hmore pieces)
    · rw [List.filter_cons_of_pos (by simp [hidle]), List.cons_append, List.cons_append, walk, walk, ih, ih, ih]

theorem contains_nul (p : Path) : p.spelling.contains (.char '\x00') = p.pieces.any fun piece => piece.contains (.char '\x00') := by
  have hmem : ∀ r : Raw, r.contains (.char '\x00') = true ↔ [Glyph.char '\x00'] <:+: r := by
    intro r
    rw [List.contains_iff_mem, List.singleton_infix_iff]
  have hslash : Glyph.char '/' ∉ [Glyph.char '\x00'] := by decide
  rw [Bool.eq_iff_iff, hmem, List.any_eq_true, Path.pieces, infix_iff_splitOn hslash]
  simp only [hmem]

theorem any_nul_filter (pieces : List Raw) :
    ((pieces.filter fun piece => !isIdle piece).any fun piece => piece.contains (.char '\x00')) =
      pieces.any fun piece => piece.contains (.char '\x00') := by
  induction pieces with
  | nil => rfl
  | cons piece pieces ih =>
    rw [List.any_cons]
    by_cases hidle : isIdle piece = true
    · have hnul : piece.contains (.char '\x00') = false := by
        rw [isIdle, Bool.or_eq_true, List.isEmpty_iff, beq_iff_eq] at hidle
        rcases hidle with rfl | rfl
        · rfl
        · rfl
      rw [List.filter_cons_of_neg (by simp [hidle]), hnul, ih, Bool.false_or]
    · rw [List.filter_cons_of_pos (by simp [hidle]), List.any_cons, ih]

variable {t : FileTree} {cwd : Place} {dir dir' : Path} {name : Raw}

/-- A path in a directory leads where the steps of the directory and the pieces of the rest lead. -/
theorem resolve_child_steps (hdir : dir.isAbsolute = true) (hname : (⟨name⟩ : Path).isAbsolute = false)
    (hshort : (dir.child name).size < pathLimit) :
    t.resolve cwd (dir.child name) =
      if (dir.steps ++ (⟨name⟩ : Path).pieces).any fun piece => piece.contains (.char '\x00') then .error .nulInPath
      else t.walk [] (dir.steps ++ (⟨name⟩ : Path).pieces) := by
  obtain ⟨before, hpieces, hbefore⟩ := pieces_child dir hname
  have hfull := Path.isAbsolute_child hdir name
  have hrest : (⟨name⟩ : Path).pieces ≠ [] := List.splitOnP_ne_nil _ _
  have hnul : (dir.child name).spelling.contains (.char '\x00') =
      (dir.steps ++ (⟨name⟩ : Path).pieces).any fun piece => piece.contains (.char '\x00') := by
    rw [contains_nul, hpieces, List.any_append, List.any_append, ← Path.filter_before_child hbefore, any_nul_filter]
  rw [resolve, hnul, Path.isEmpty_of_isAbsolute hfull, if_neg Bool.false_ne_true, if_neg (Nat.not_le.mpr hshort),
    if_pos hfull, hpieces, walk_filter _ _ _ hrest, Path.filter_before_child hbefore]

theorem resolve_child_of_same (hdir : dir.isAbsolute = true) (hdir' : dir'.isAbsolute = true)
    (hsame : dir.same dir' = true) (hshort : (dir.child name).size < pathLimit)
    (hshort' : (dir'.child name).size < pathLimit) :
    t.resolve cwd (dir.child name) = t.resolve cwd (dir'.child name) := by
  by_cases hname : (⟨name⟩ : Path).isAbsolute = true
  · rw [dir.child_of_isAbsolute hname, dir'.child_of_isAbsolute hname]
  · have hrelative := Bool.eq_false_iff.mpr hname
    rw [resolve_child_steps hdir hrelative hshort, resolve_child_steps hdir' hrelative hshort',
      (Path.same_iff_steps hdir hdir').mp hsame]

theorem short_of_isFile {p : Path} (hfile : t.isFile cwd p = true) : p.size < pathLimit := by
  by_contra hlong
  have hresolve : ∃ e, t.resolve cwd p = .error e := by
    rw [resolve]
    split
    · exact ⟨_, rfl⟩
    · split
      · exact ⟨_, rfl⟩
      · rw [if_pos (Nat.not_lt.mp hlong)]
        exact ⟨_, rfl⟩
  obtain ⟨e, he⟩ := hresolve
  simp only [isFile, find, he, bind, Except.bind, Bool.false_eq_true] at hfile

/-- A file is found under every spelling of its directory with which the path is not too long. -/
theorem isFile_child_of_same (hdir : dir.isAbsolute = true) (hdir' : dir'.isAbsolute = true)
    (hsame : dir.same dir' = true) (hshort : (dir.child name).size < pathLimit)
    (hfile : t.isFile cwd (dir'.child name) = true) : t.isFile cwd (dir.child name) = true := by
  rw [isFile, find] at hfile ⊢
  rw [resolve_child_of_same hdir hdir' hsame hshort (short_of_isFile hfile)]
  exact hfile

end FileTree

end Bringup

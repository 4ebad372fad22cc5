import Bringup.Progress.Store
import Bringup.Proofs.RecordText

/-!
# The stored record

* `FileTree.read_of_write`: a file that was written is read.
* `recordBytes`, `record`: the bytes of the record in a checkout and what would be loaded from them.
* `load_eq`, `recordBytes_save`: loading and storing in these terms. `HasPlace.save`: storing succeeds where there is
  a place for the record.
* `recordOf_written`, `recordOf_torn`: what a whole and a torn text hold.
-/

namespace Bringup

set_option autoImplicit false

open Bringup.Text Utf8

namespace FileTree

/-! ## Writing and reading -/

theorem get?_put_self (t : FileTree) {place : Place} (h : place ≠ []) (node : Node) :
    (t.put place node).get? place = some node := by
  rw [get?, if_neg h, put, List.lookup_cons_self]

theorem lookup_filter_ne {entries : List (Place × Node)} {place other : Place} (h : other ≠ place) :
    (entries.filter fun e => e.1 != place).lookup other = entries.lookup other := by
  induction entries with
  | nil => rfl
  | cons e entries ih =>
    obtain ⟨key, node⟩ := e
    by_cases hkey : key = place
    · subst hkey
      have hne : (other == key) = false := beq_eq_false_iff_ne.mpr h
      rw [List.filter_cons_of_neg (by simp), List.lookup_cons, hne, ih]
    · rw [List.filter_cons_of_pos (by simpa using hkey), List.lookup_cons, List.lookup_cons, ih]

theorem get?_put_of_ne (t : FileTree) {place other : Place} (h : other ≠ place) (node : Node) :
    (t.put place node).get? other = t.get? other := by
  have hne : (other == place) = false := beq_eq_false_iff_ne.mpr h
  rw [get?, get?, put, List.lookup_cons, hne, lookup_filter_ne h]

theorem needDirectory_ok {t : FileTree} {place : Place} (h : t.needDirectory place = .ok ()) :
    t.get? place = some .directory := by
  rw [needDirectory] at h
  split at h
  · assumption
  · cases h
  · cases h

theorem needDirectory_of_get? {t : FileTree} {place : Place} (h : t.get? place = some .directory) :
    t.needDirectory place = .ok () := by
  rw [needDirectory, h]

theorem needDirectory_eq_ok {t : FileTree} {place : Place} :
    t.needDirectory place = .ok () ↔ t.get? place = some .directory :=
  ⟨needDirectory_ok, needDirectory_of_get?⟩

/-- A walk goes the same way in a tree that has the same directories. -/
theorem walk_ok_mono {t t' : FileTree} (hdir : ∀ p, t.get? p = some .directory → t'.get? p = some .directory)
    {place r : Place} {pieces : List Raw} (h : t.walk place pieces = .ok r) :
    t'.walk place pieces = .ok r := by
  induction pieces generalizing place with
  | nil => exact h
  | cons piece pieces ih =>
    rw [walk] at h ⊢
    cases hneed : t.needDirectory place with
    | error e =>
      rw [hneed] at h
      cases h
    | ok u =>
      rw [hneed] at h
      rw [needDirectory_of_get? (hdir _ (needDirectory_ok hneed))]
      change (if _ then _ else _) = _ at h
      change (if _ then _ else _) = _
      split at h
      · next hdot => rw [if_pos hdot]; exact ih h
      · next hdot =>
        rw [if_neg hdot]
        split at h
        · next hup => rw [if_pos hup]; exact ih h
        · next hup =>
          rw [if_neg hup]
          split at h
          · cases h
          · next hlong => rw [if_neg hlong]; exact ih h

theorem walk_append (t : FileTree) (place : Place) (xs ys : List Raw) :
    t.walk place (xs ++ ys) = (do t.walk (← t.walk place xs) ys) := by
  induction xs generalizing place with
  | nil => rfl
  | cons x xs ih =>
    rw [List.cons_append, walk, walk]
    cases t.needDirectory place with
    | error e => rfl
    | ok u =>
      change (if _ then _ else _) = (if _ then _ else _ : Except IoError Place) >>= _
      split
      · exact ih _
      · split
        · exact ih _
        · split
          · rfl
          · exact ih _

theorem resolve_ok_mono {t t' : FileTree}
    (hdir : ∀ p, t.get? p = some .directory → t'.get? p = some .directory) {cwd r : Place} {p : Path}
    (h : t.resolve cwd p = .ok r) : t'.resolve cwd p = .ok r := by
  rw [resolve] at h ⊢
  split at h
  · cases h
  · next hnul =>
    rw [if_neg hnul]
    split at h
    · cases h
    · next hempty =>
      rw [if_neg hempty]
      split at h
      · cases h
      · next hlong =>
        rw [if_neg hlong]
        exact walk_ok_mono hdir h

theorem find_of_get? {t : FileTree} {cwd place : Place} {p : Path} {node : Node}
    (hplace : t.resolve cwd p = .ok place) (hnode : t.get? place = some node) :
    t.find cwd p = .ok (place, node) := by
  simp only [find, hplace, bind, Except.bind, hnode]
  rfl

theorem directory_put {t : FileTree} {place : Place} (hnode : t.get? place ≠ some .directory) (node : Node)
    (q : Place) (hq : t.get? q = some .directory) : (t.put place node).get? q = some .directory := by
  have hne : q ≠ place := by
    rintro rfl
    exact hnode hq
  rw [get?_put_of_ne t hne, hq]

theorem ne_root {t : FileTree} {place : Place} (hnode : t.get? place ≠ some .directory) : place ≠ [] := by
  rintro rfl
  exact hnode rfl

theorem read_put {t : FileTree} {cwd place : Place} {p : Path} (hnode : t.get? place ≠ some .directory)
    (hplace : t.resolve cwd p = .ok place) (contents : Bytes) :
    (t.put place (.file contents)).read cwd p = .ok contents := by
  have hfind : (t.put place (.file contents)).find cwd p = .ok (place, .file contents) :=
    find_of_get? (resolve_ok_mono (directory_put hnode _) hplace) (get?_put_self t (ne_root hnode) _)
  rw [read, hfind]
  rfl

theorem present_put {t : FileTree} {cwd place : Place} {p : Path} (hnode : t.get? place ≠ some .directory)
    (node : Node) (h : t.present cwd p = true) : (t.put place node).present cwd p = true := by
  rw [present, find] at h
  cases hplace : t.resolve cwd p with
  | error e =>
    rw [hplace] at h
    cases h
  | ok r =>
    have hresolve := resolve_ok_mono (directory_put hnode node) hplace
    rw [hplace] at h
    dsimp only [bind, Except.bind] at h
    rw [present]
    by_cases hr : r = place
    · subst hr
      rw [find_of_get? hresolve (get?_put_self t (ne_root hnode) node)]
      rfl
    · cases hget : t.get? r with
      | none =>
        rw [hget] at h
        cases h
      | some other =>
        rw [find_of_get? hresolve ((get?_put_of_ne t hr node).trans hget)]
        rfl

/-- A file in another place is read as before. -/
theorem toOption_read_put {t : FileTree} {cwd place : Place} {p : Path} (hnode : t.get? place ≠ some .directory)
    (hplace : t.resolve cwd p ≠ .ok place) (contents : Bytes) :
    ((t.put place (.file contents)).read cwd p).toOption = (t.read cwd p).toOption := by
  have hdirs : ∀ q, (t.put place (.file contents)).get? q = some .directory → t.get? q = some .directory := by
    intro q hq
    by_cases hqp : q = place
    · rw [hqp, get?_put_self t (ne_root hnode)] at hq
      cases hq
    · rw [← get?_put_of_ne t hqp, hq]
  cases hresolve : t.resolve cwd p with
  | ok r =>
    have hne : r ≠ place := by
      rintro rfl
      exact hplace hresolve
    simp only [read, find, resolve_ok_mono (directory_put hnode _) hresolve, hresolve, bind, Except.bind,
      get?_put_of_ne t hne]
  | error e =>
    cases hafter : (t.put place (.file contents)).resolve cwd p with
    | ok r =>
      rw [resolve_ok_mono hdirs hafter] at hresolve
      cases hresolve
    | error e' =>
      simp only [read, find, hafter, hresolve, bind, Except.bind]
      rfl

theorem read_of_write {t t' : FileTree} {cwd : Place} {p : Path} {contents : Bytes}
    (h : t.write cwd p contents = .ok t') : t'.read cwd p = .ok contents := by
  rw [write] at h
  cases hplace : t.resolve cwd p with
  | error e =>
    rw [hplace] at h
    cases h
  | ok place =>
    rw [hplace] at h
    dsimp only [bind, Except.bind] at h
    split at h
    · cases h
    · next hnode =>
      cases h
      exact read_put hnode hplace contents

/-! ## Files in a directory -/

section

variable {dir : Path} {name : Raw}

theorem isAbsolute_of_not_mem (hname : Glyph.char '/' ∉ name) : (⟨name⟩ : Path).isAbsolute = false := by
  rw [Path.isAbsolute, beq_eq_false_iff_ne]
  intro hhead
  exact hname (List.mem_of_mem_head? hhead)

theorem child_eq (hdir : dir.spelling ≠ []) (hlast : dir.spelling.getLast? ≠ some (.char '/'))
    (hname : Glyph.char '/' ∉ name) : dir.child name = ⟨dir.spelling ++ .char '/' :: name⟩ := by
  have hrelative := isAbsolute_of_not_mem hname
  have hsep : (dir.spelling.isEmpty || dir.spelling.getLast? == some (.char '/')) = false := by
    simp [hdir, hlast]
  rw [Path.child, Path.join, hrelative, if_neg (by decide), hsep, if_neg (by decide)]

/-- A place in a directory is only found through the directory. -/
theorem resolve_child {t : FileTree} {cwd r : Place} (hdir : dir.spelling ≠ [])
    (hlast : dir.spelling.getLast? ≠ some (.char '/')) (hname : Glyph.char '/' ∉ name)
    (h : t.resolve cwd (dir.child name) = .ok r) :
    ∃ place, t.resolve cwd dir = .ok place ∧ t.get? place = some .directory := by
  have hspelling : (dir.child name).spelling = dir.spelling ++ .char '/' :: name :=
    congrArg Path.spelling (child_eq hdir hlast hname)
  have hpieces : (dir.child name).pieces = dir.pieces ++ [name] := by
    rw [Path.pieces, hspelling, List.splitOn_append_cons_self, List.splitOn_eq_singleton hname]
    rfl
  have habs : (dir.child name).isAbsolute = dir.isAbsolute := by
    rw [Path.isAbsolute, hspelling, Path.isAbsolute, List.head?_append_of_ne_nil _ hdir]
  -- The walk to the file is the walk to the directory and one step from there.
  rw [resolve] at h
  split at h
  · cases h
  next hnul =>
  split at h
  · cases h
  split at h
  · cases h
  next hlong =>
  rw [habs, hpieces, walk_append] at h
  cases hplace : t.walk (if dir.isAbsolute then [] else cwd) dir.pieces with
  | error e =>
    rw [hplace] at h
    cases h
  | ok place =>
    rw [hplace] at h
    refine ⟨place, ?_, ?_⟩
    · have hnul' : ¬ dir.spelling.contains (.char '\x00') = true := by
        intro hin
        rw [hspelling, List.contains_eq_mem, decide_eq_true_eq] at hnul
        rw [List.contains_eq_mem, decide_eq_true_eq] at hin
        exact hnul (List.mem_append_left _ hin)
      have hempty : ¬ dir.spelling.isEmpty = true := fun hempty => hdir (List.isEmpty_iff.mp hempty)
      have hlong' : ¬ pathLimit ≤ dir.size := by
        rw [Path.size, hspelling, Raw.size_append] at hlong
        rw [Path.size]
        omega
      rw [resolve, if_neg hnul', if_neg hempty, if_neg hlong', hplace]
    · cases hneed : t.needDirectory place with
      | ok u => exact needDirectory_ok hneed
      | error e =>
        simp only [bind, Except.bind, walk, hneed] at h
        cases h

theorem pieces_child (dir : Path) (hname : (⟨name⟩ : Path).isAbsolute = false) :
    ∃ before, (dir.child name).pieces = before ++ (⟨name⟩ : Path).pieces ∧
      (before = dir.pieces ∨ before ++ [[]] = dir.pieces) := by
  rw [Path.pieces, Path.child, Path.join, hname, if_neg (by decide)]
  split
  · next hbase =>
    rw [Bool.or_eq_true, List.isEmpty_iff, beq_iff_eq] at hbase
    rcases hbase with hempty | hlast
    · refine ⟨[], ?_, .inr ?_⟩
      · rw [hempty]
        rfl
      · rw [Path.pieces, hempty]
        rfl
    · obtain ⟨cs, hcs⟩ := List.getLast?_eq_some_iff.mp hlast
      refine ⟨cs.splitOn (.char '/'), ?_, .inr ?_⟩
      · rw [hcs, List.append_assoc]
        exact List.splitOn_append_cons_self ..
      · rw [Path.pieces, hcs, List.splitOn_append_cons_self]
        rfl
  · exact ⟨dir.pieces, List.splitOn_append_cons_self .., .inl rfl⟩

theorem resolve_child_ok {t : FileTree} {cwd r : Place} (hname : (⟨name⟩ : Path).isAbsolute = false)
    (h : t.resolve cwd (dir.child name) = .ok r) : ∃ place, t.walk place (⟨name⟩ : Path).pieces = .ok r := by
  obtain ⟨before, hpieces, -⟩ := pieces_child dir hname
  rw [resolve] at h
  split at h
  · cases h
  split at h
  · cases h
  split at h
  · cases h
  rw [hpieces, walk_append] at h
  generalize (if (dir.child name).isAbsolute = true then ([] : Place) else cwd) = start at h
  cases hplace : t.walk start before with
  | error e =>
    rw [hplace] at h
    cases h
  | ok place =>
    rw [hplace] at h
    exact ⟨place, h⟩

/-- A path to a name in a directory leads to a place of that name. -/
theorem resolve_child_place {t : FileTree} {cwd r : Place} (hname : Glyph.char '/' ∉ name)
    (hplain : Path.component? name = some (.normal name)) (h : t.resolve cwd (dir.child name) = .ok r) :
    ∃ parent, r = parent ++ [name] := by
  obtain ⟨parent, hwalk⟩ := resolve_child_ok (isAbsolute_of_not_mem hname) h
  have hsingle : (⟨name⟩ : Path).pieces = [name] := List.splitOn_eq_singleton hname
  refine ⟨parent, ?_⟩
  rw [hsingle] at hwalk
  rw [Path.component?] at hplain
  split at hplain
  · cases hplain
  next hidle =>
  split at hplain
  · cases hplain
  next hup =>
  simp only [bind, Except.bind, walk, if_neg hidle, if_neg hup] at hwalk
  split at hwalk
  · cases hwalk
  · split at hwalk
    · cases hwalk
    · cases hwalk
      rfl

/-- What lies in a directory is only read if the directory is there. -/
theorem read_child_of_absent {t : FileTree} {cwd : Place} (hdir : dir.spelling ≠ [])
    (hlast : dir.spelling.getLast? ≠ some (.char '/')) (hname : Glyph.char '/' ∉ name)
    (h : t.present cwd dir = false) : (t.read cwd (dir.child name)).toOption = none := by
  cases hread : t.resolve cwd (dir.child name) with
  | error e =>
    simp only [read, find, hread, bind, Except.bind]
    rfl
  | ok r =>
    obtain ⟨place, hplace, hnode⟩ := resolve_child hdir hlast hname hread
    rw [present, find_of_get? hplace hnode] at h
    cases h

end

end FileTree

namespace HostM

variable {h : Host} {path : Path}

theorem run_bind {α β : Type} (x : HostM α) (f : α → HostM β) (h : Host) :
    (x >>= f).run h = (f (x.run h).1).run (x.run h).2 := rfl

theorem run_present (path : Path) (h : Host) : (present path).run h = (h.files.present h.cwd path, h) := rfl

theorem run_readText (path : Path) (h : Host) :
    (readText path).run h = (h.files.readText h.cwd path, h) := rfl

/-- A line of the log is kept with its time, and perhaps shown. -/
theorem run_log (level : LogLevel) (target message : String) (h : Host) :
    ∃ stderr, ((log level target message).run h).2 =
      { h with logs := h.logs ++ [⟨level, target, message⟩], readings := h.readings + 1, stderr } := by
  let entry : LogRecord := ⟨level, target, message⟩
  let time := (Instant.ofMoment (h.clock h.readings)).secondsText ++ "Z"
  let logged : Host := { h with logs := h.logs ++ [entry], readings := h.readings + 1 }
  have hrun : (log level target message).run h =
      (if logged.console.shows entry then warnBytes (entry.shown time logged.console.coloured)
        else pure ()).run logged := rfl
  rw [hrun]
  split
  · exact ⟨_, rfl⟩
  · exact ⟨_, rfl⟩

theorem run_writeText_ok {text : String} {files : FileTree}
    (hwrite : h.files.write h.cwd path (encode text) = .ok files) :
    (writeText path text).run h = (.ok (), { h with files }) := by
  have hget : (get : HostM Host).run h = (h, h) := rfl
  rw [writeText, run_bind, hget]
  dsimp only
  rw [hwrite]
  rfl

theorem run_writeText_error {text : String} {e : IoError}
    (hwrite : h.files.write h.cwd path (encode text) = .error e) :
    (writeText path text).run h = (.error e, h) := by
  have hget : (get : HostM Host).run h = (h, h) := rfl
  rw [writeText, run_bind, hget]
  dsimp only
  rw [hwrite]
  rfl

end HostM

/-! ## The record in a checkout -/

/-- The bytes of the record in a checkout. -/
def Host.recordBytes (h : Host) (checkout : Path) : Option Bytes :=
  (h.files.read h.cwd (Progress.path checkout)).toOption

/-- The record that bytes hold. -/
def recordOf (bytes : Option Bytes) : Option Progress :=
  bytes.bind fun bs => (decode? bs).bind fun text => (Progress.ofText text).toOption

/-- The record that a checkout has. -/
def Host.record (h : Host) (checkout : Path) : Option Progress := recordOf (h.recordBytes checkout)

theorem Host.record_eq_none {h : Host} {checkout : Path} (hbare : h.recordBytes checkout = none) :
    h.record checkout = none := by
  rw [Host.record, hbare]
  rfl

/-- The files are the same, seen from the same directory. -/
def Host.SameFiles (h h' : Host) : Prop := h'.files = h.files ∧ h'.cwd = h.cwd

theorem Host.SameFiles.refl (h : Host) : h.SameFiles h := ⟨rfl, rfl⟩

theorem Host.SameFiles.trans {h₁ h₂ h₃ : Host} (h : h₁.SameFiles h₂) (h' : h₂.SameFiles h₃) : h₁.SameFiles h₃ :=
  ⟨h'.1.trans h.1, h'.2.trans h.2⟩

/-- A written record is there again, if its time can be read. -/
theorem recordOf_written (p : Progress) :
    recordOf (some (encode p.text)) =
      (Instant.ofText p.updatedAt.text).toOption.map fun t => { p with updatedAt := t } := by
  rw [recordOf, Option.bind_some, decode?_eq_some.mpr rfl, Option.bind_some, Progress.ofText_text]

/-- A torn record is none. -/
theorem recordOf_torn {p : Progress} {part : Bytes} (hpart : part <+: encode p.text)
    (hne : part ≠ encode p.text) : recordOf (some part) = none := by
  rw [recordOf, Option.bind_some]
  cases hdecode : decode? part with
  | none => rfl
  | some text =>
    have hpart' := decode?_eq_some.mp hdecode
    rw [Option.bind_some, Progress.ofText, ← hpart']
    cases hread : Json.readAll Progress.read part with
    | error e => rfl
    | ok q => exact absurd hread (Progress.readAll_torn_text hpart hne q)

namespace Progress

variable {checkout : Path} {h h' : Host}

theorem spelling_directory (checkout : Path) :
    ∃ before, (directory checkout).spelling = before ++ [.char '.', .char 'g', .char 'i', .char 't'] := by
  rw [directory, Path.child, Path.join]
  split
  · exact ⟨[], rfl⟩
  · split
    · exact ⟨checkout.spelling, rfl⟩
    · exact ⟨checkout.spelling ++ [.char '/'], by rw [List.append_assoc]; rfl⟩

/-- Without a directory of source control there is no record. -/
theorem recordBytes_of_absent (habsent : h.files.present h.cwd (directory checkout) = false) :
    h.recordBytes checkout = none := by
  obtain ⟨before, hbefore⟩ := spelling_directory checkout
  refine FileTree.read_child_of_absent ?_ ?_ (by decide) habsent
  · simp [hbefore]
  · simp [hbefore]

theorem recordBytes_of_sameFiles (hfiles : h.SameFiles h') :
    h'.recordBytes checkout = h.recordBytes checkout := by
  rw [Host.recordBytes, Host.recordBytes, hfiles.1, hfiles.2]

theorem record_of_sameFiles (hfiles : h.SameFiles h') : h'.record checkout = h.record checkout := by
  rw [Host.record, Host.record, recordBytes_of_sameFiles hfiles]

theorem sameFiles_log (level : LogLevel) (target message : String) (h : Host) :
    h.SameFiles ((HostM.log level target message).run h).2 := by
  obtain ⟨stderr, hlog⟩ := HostM.run_log level target message h
  rw [hlog]
  exact ⟨rfl, rfl⟩

/-- Loading gives the record of the checkout and changes no file. -/
theorem load_eq {loaded : Option Progress} (hload : (load checkout).run h = (loaded, h')) :
    loaded = h.record checkout ∧ h.SameFiles h' := by
  rw [load, HostM.run_bind, HostM.run_readText] at hload
  dsimp only at hload
  rw [FileTree.readText] at hload
  cases hread : h.files.read h.cwd (path checkout) with
  | error e =>
    rw [hread] at hload
    cases hload
    exact ⟨by rw [Host.record, Host.recordBytes, hread]; rfl, rfl, rfl⟩
  | ok bs =>
    have hrecord : h.record checkout = (decode? bs).bind fun text => (ofText text).toOption := by
      rw [Host.record, Host.recordBytes, hread]
      rfl
    rw [hread] at hload
    rw [hrecord]
    dsimp only [bind, Except.bind] at hload
    cases hdecode : decode? bs with
    | none =>
      rw [hdecode] at hload
      cases hload
      exact ⟨rfl, rfl, rfl⟩
    | some text =>
      rw [Option.bind_some]
      rw [hdecode] at hload
      dsimp only [pure, Except.pure] at hload
      cases hprogress : ofText text with
      | ok progress =>
        rw [hprogress] at hload
        cases hload
        exact ⟨rfl, rfl, rfl⟩
      | error e =>
        rw [hprogress] at hload
        cases hload
        exact ⟨rfl, sameFiles_log _ _ _ h⟩

theorem load_fst (checkout : Path) (h : Host) : ((load checkout).run h).1 = h.record checkout := by
  cases hload : (load checkout).run h with
  | mk loaded h' => exact (load_eq hload).1

/-- Without a directory of source control nothing is stored. -/
theorem save_of_absent (habsent : h.files.present h.cwd (directory checkout) = false) (p : Progress) :
    ∃ h', (save checkout p).run h = (.ok (), h') ∧ h.SameFiles h' := by
  rw [save, HostM.run_bind, HostM.run_present]
  dsimp only
  rw [if_neg (by rw [habsent]; decide), HostM.run_bind]
  exact ⟨_, rfl, sameFiles_log _ _ _ h⟩

/-- Where there is one, storing writes the record. -/
theorem write_of_save {p : Progress} (hsave : (save checkout p).run h = (.ok (), h'))
    (hpresent : h.files.present h.cwd (directory checkout) = true) :
    ∃ files, h.files.write h.cwd (path checkout) (encode p.text) = .ok files ∧ h' = { h with files } := by
  rw [save, HostM.run_bind, HostM.run_present] at hsave
  dsimp only at hsave
  rw [if_pos hpresent] at hsave
  cases hwrite : h.files.write h.cwd (path checkout) (encode p.text) with
  | ok files =>
    rw [HostM.run_writeText_ok hwrite] at hsave
    cases hsave
    exact ⟨files, rfl, rfl⟩
  | error e =>
    rw [HostM.run_writeText_error hwrite] at hsave
    cases hsave

/-- After storing has succeeded, the record is the one that was stored, unless there is no place for one. -/
theorem recordBytes_save {p : Progress} (hsave : (save checkout p).run h = (.ok (), h')) :
    h'.recordBytes checkout =
      if h.files.present h.cwd (directory checkout) then some (encode p.text) else none := by
  cases hgit : h.files.present h.cwd (directory checkout) with
  | true =>
    obtain ⟨_, hwrite, rfl⟩ := write_of_save hsave hgit
    exact congrArg Except.toOption (FileTree.read_of_write hwrite)
  | false =>
    obtain ⟨_, hrun, hfiles⟩ := save_of_absent hgit p
    cases hrun.symm.trans hsave
    exact (recordBytes_of_sameFiles hfiles).trans (recordBytes_of_absent hgit)

/-! ## A place for the record -/

/-- The checkout has a directory of source control with a place for the record. -/
structure HasPlace (checkout : Path) (h : Host) (place : Place) : Prop where
  present : h.files.present h.cwd (directory checkout) = true
  resolve : h.files.resolve h.cwd (path checkout) = .ok place
  node : h.files.get? place ≠ some .directory

/-- The host with some bytes as the record. -/
def withRecord (h : Host) (place : Place) (bytes : Bytes) : Host :=
  { h with files := h.files.put place (.file bytes) }

variable {place : Place}

theorem HasPlace.sameFiles (hplace : HasPlace checkout h place) (hfiles : h.SameFiles h') :
    HasPlace checkout h' place := by
  obtain ⟨hsame, hcwd⟩ := hfiles
  refine ⟨?_, ?_, ?_⟩
  · rw [hsame, hcwd]
    exact hplace.present
  · rw [hsame, hcwd]
    exact hplace.resolve
  · rw [hsame]
    exact hplace.node

theorem HasPlace.recordBytes_withRecord (hplace : HasPlace checkout h place) (bytes : Bytes) :
    (withRecord h place bytes).recordBytes checkout = some bytes :=
  congrArg Except.toOption (FileTree.read_put hplace.node hplace.resolve bytes)

theorem HasPlace.withRecord (hplace : HasPlace checkout h place) (bytes : Bytes) :
    HasPlace checkout (withRecord h place bytes) place := by
  have hdir := FileTree.directory_put hplace.node (.file bytes)
  refine ⟨?_, FileTree.resolve_ok_mono hdir hplace.resolve, ?_⟩
  · exact FileTree.present_put hplace.node (.file bytes) hplace.present
  · change (h.files.put place (.file bytes)).get? place ≠ _
    rw [FileTree.get?_put_self _ (FileTree.ne_root hplace.node)]
    nofun

theorem HasPlace.save (hplace : HasPlace checkout h place) (p : Progress) :
    (Progress.save checkout p).run h = (.ok (), Progress.withRecord h place (encode p.text)) := by
  have hwrite : h.files.write h.cwd (path checkout) (encode p.text)
      = .ok (h.files.put place (.file (encode p.text))) := by
    rw [FileTree.write, hplace.resolve]
    dsimp only [bind, Except.bind]
    split
    · next hdir => exact absurd hdir hplace.node
    · rfl
  rw [Progress.save, HostM.run_bind, HostM.run_present]
  dsimp only
  rw [if_pos hplace.present, HostM.run_writeText_ok hwrite]
  rfl

end Progress

end Bringup

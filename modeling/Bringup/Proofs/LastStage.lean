import Bringup.Procedure.OnHost
import Bringup.Proofs.Course
import Bringup.Proofs.StoredRecord

/-!
# The last stage on a host

* `Disassembler.Attempt`: what comes of writing the path of a tool into a file, case by case.
* `Procedure.Configured`: what the last stage comes to. `Procedure.Untouched`: the report before it.
* `Procedure.run_ends`: a run ends before its last stage, or as that stage says.
-/

namespace Bringup

set_option autoImplicit false

open Bringup.Text Utf8
open Procedure

/-! ## Files that are there -/

namespace FileTree

variable {t : FileTree} {cwd place : Place} {p : Path} {node : Node}

theorem find_ok (h : t.find cwd p = .ok (place, node)) :
    t.resolve cwd p = .ok place ∧ t.get? place = some node := by
  rw [find] at h
  cases hplace : t.resolve cwd p with
  | error e =>
    rw [hplace] at h
    cases h
  | ok found =>
    rw [hplace] at h
    dsimp only [bind, Except.bind] at h
    split at h
    · next hnode =>
      cases h
      exact ⟨rfl, hnode⟩
    · cases h

/-- The path leads to a place with a file. -/
structure HasFile (t : FileTree) (cwd : Place) (p : Path) (place : Place) : Prop where
  resolve : t.resolve cwd p = .ok place
  node : ∃ node, t.get? place = some node ∧ node.isFile = true

theorem hasFile_of_isFile (h : t.isFile cwd p = true) : ∃ place, t.HasFile cwd p place := by
  rw [isFile] at h
  split at h
  · next place node hfind =>
    obtain ⟨hplace, hnode⟩ := find_ok hfind
    exact ⟨place, hplace, node, hnode, h⟩
  · cases h

theorem HasFile.not_directory (h : t.HasFile cwd p place) : t.get? place ≠ some .directory := by
  obtain ⟨node, hnode, hfile⟩ := h.node
  rw [hnode]
  rintro ⟨⟩
  cases hfile

theorem HasFile.read (h : t.HasFile cwd p place) : ∃ bytes, t.read cwd p = .ok bytes := by
  obtain ⟨node, hnode, hfile⟩ := h.node
  rw [FileTree.read, find_of_get? h.resolve hnode]
  cases node with
  | directory => cases hfile
  | file contents => exact ⟨contents, rfl⟩
  | program rules executable => exact ⟨[], rfl⟩

theorem HasFile.write (h : t.HasFile cwd p place) (bytes : Bytes) :
    t.write cwd p bytes = .ok (t.put place (.file bytes)) := by
  rw [FileTree.write, h.resolve]
  dsimp only [bind, Except.bind]
  split
  · next hdir => exact absurd hdir h.not_directory
  · rfl

/-- New contents in a file lead no path to another place. -/
theorem HasFile.resolve_put (h : t.HasFile cwd p place) (bytes : Bytes) (dir : Place) (q : Path) :
    (t.put place (.file bytes)).resolve dir q = t.resolve dir q := by
  have hneed : ∀ at', (t.put place (.file bytes)).needDirectory at' = t.needDirectory at' := by
    intro at'
    obtain ⟨node, hnode, hfile⟩ := h.node
    by_cases hat : at' = place
    · subst hat
      rw [needDirectory, needDirectory, get?_put_self t (ne_root h.not_directory), hnode]
      cases node with
      | directory => cases hfile
      | file contents => rfl
      | program rules executable => rfl
    · rw [needDirectory, needDirectory, get?_put_of_ne t hat]
  have hwalk : ∀ (pieces : List Raw) (start : Place),
      (t.put place (.file bytes)).walk start pieces = t.walk start pieces := by
    intro pieces
    induction pieces with
    | nil => intro start; rfl
    | cons piece pieces ih =>
      intro start
      rw [walk, walk, hneed start]
      simp only [ih]
  rw [FileTree.resolve, FileTree.resolve, hwalk]

theorem HasFile.put (h : t.HasFile cwd p place) (bytes : Bytes) :
    (t.put place (.file bytes)).HasFile cwd p place :=
  ⟨(h.resolve_put bytes cwd p).trans h.resolve, .file bytes, get?_put_self t (ne_root h.not_directory) _, rfl⟩

theorem readText_eq {bytes : Bytes} (h : t.read cwd p = .ok bytes) :
    t.readText cwd p =
      match decode? bytes with
      | some text => .ok text
      | none => .error .notUtf8 := by
  rw [readText, h]
  rfl

theorem read_of_readText {text : String} (h : t.readText cwd p = .ok text) : t.read cwd p = .ok (encode text) := by
  cases hread : t.read cwd p with
  | error e =>
    rw [readText, hread] at h
    cases h
  | ok bytes =>
    rw [readText_eq hread] at h
    split at h
    · next hdecode =>
      cases h
      rw [decode?_eq_some.mp hdecode]
    · cases h

theorem isFile_of_read {bytes : Bytes} (h : t.read cwd p = .ok bytes) : t.isFile cwd p = true := by
  rw [read] at h
  rw [isFile]
  cases hfind : t.find cwd p with
  | error e =>
    rw [hfind] at h
    cases h
  | ok found =>
    obtain ⟨place, node⟩ := found
    rw [hfind] at h
    cases node with
    | directory => cases h
    | file contents => rfl
    | program rules executable => rfl

/-- Writing puts a file where no directory is. -/
theorem write_ok {t' : FileTree} {bytes : Bytes} (h : t.write cwd p bytes = .ok t') :
    ∃ place, t.resolve cwd p = .ok place ∧ t.get? place ≠ some .directory ∧ t' = t.put place (.file bytes) := by
  rw [write] at h
  cases hplace : t.resolve cwd p with
  | error e =>
    rw [hplace] at h
    cases h
  | ok place =>
    rw [hplace] at h
    dsimp only [bind, Except.bind] at h
    split at h
    · cases h
    · next hnode =>
      cases h
      exact ⟨place, rfl, hnode, rfl⟩

/-- A file is read as before after something was put in another place. -/
theorem read_put_of_ne {other : Place} (hplace : t.resolve cwd p = .ok place)
    (hnode : t.get? other ≠ some .directory) (hne : place ≠ other) (hsome : t.get? place = some node)
    (new : Node) : (t.put other new).read cwd p = t.read cwd p := by
  have hfind : t.find cwd p = .ok (place, node) := find_of_get? hplace hsome
  have hfind' : (t.put other new).find cwd p = .ok (place, node) :=
    find_of_get? (resolve_ok_mono (directory_put hnode new) hplace) ((get?_put_of_ne t hne new).trans hsome)
  rw [read, read, hfind, hfind']

end FileTree

/-! ## Writing the path of the tool -/

namespace HostM

variable {α β ε : Type} {x : ExceptT ε HostM α} {f : α → ExceptT ε HostM β} {h h' : Host} {a : α} {e : ε}

theorem run_bind_ok (hx : x.run.run h = (.ok a, h')) : (x >>= f).run.run h = (f a).run.run h' := by
  rw [ExceptT.run_bind, run_bind, hx]

theorem run_bind_error (hx : x.run.run h = (.error e, h')) : (x >>= f).run.run h = (.error e, h') := by
  rw [ExceptT.run_bind, run_bind, hx]
  rfl

end HostM

namespace Disassembler

variable {file tool : Path} {key : String} {h h' : Host}

/-- The path is absolute and leads to a file. -/
def Usable (tool : Path) (h : Host) : Prop := (tool.isAbsolute && h.files.isFile h.cwd tool) = true

instance (tool : Path) (h : Host) : Decidable (Usable tool h) := inferInstanceAs (Decidable (_ = true))

/-- What comes of writing the path of a tool to a key of a file. -/
inductive Attempt (file : Path) (key : String) (tool : Path) (h : Host) :
    Except ConfigureFailure Bool → Host → Prop
  | unusable (htool : ¬ Usable tool h) : Attempt file key tool h (.error (.invalidDisassembler tool.text)) h
  | absent (htool : Usable tool h) (hfile : h.files.isFile h.cwd file = false) :
      Attempt file key tool h (.error (.missingConfigFile file.text)) h
  | unreadable {bytes : Bytes} (htool : Usable tool h) (hread : h.files.read h.cwd file = .ok bytes)
      (hbytes : decode? bytes = none) : Attempt file key tool h (.error (.io .notUtf8)) h
  | unset {content : String} (htool : Usable tool h) (hread : h.files.readText h.cwd file = .ok content)
      (hassign : Assignment.assign? content key tool.text = none) :
      Attempt file key tool h (.error (.missingSetting key file.text)) h
  | kept {content : String} {place : Place} {h' : Host} (hread : h.files.readText h.cwd file = .ok content)
      (hassign : Assignment.assign? content key tool.text = some content)
      (hplace : h.files.HasFile h.cwd file place) (hfiles : h.SameFiles h') :
      Attempt file key tool h (.ok false) h'
  | written {content updated : String} {place : Place} {h' : Host}
      (hread : h.files.readText h.cwd file = .ok content)
      (hassign : Assignment.assign? content key tool.text = some updated)
      (hplace : h.files.HasFile h.cwd file place)
      (hfiles : Host.SameFiles { h with files := h.files.put place (.file (encode updated)) } h') :
      Attempt file key tool h (.ok true) h'

theorem run_validate (tool : Path) (h : Host) :
    (validate tool).run h =
      (if Usable tool h then .ok () else .error (.invalidDisassembler tool.text), h) := by
  have hrun : (validate tool).run h =
      (if tool.isAbsolute && h.files.isFile h.cwd tool then pure (.ok ())
        else pure (.error (.invalidDisassembler tool.text)) : HostM _).run h := rfl
  by_cases htool : (tool.isAbsolute && h.files.isFile h.cwd tool) = true
  · rw [hrun, if_pos htool, if_pos (show Usable tool h from htool)]
    rfl
  · rw [hrun, if_neg htool, if_neg (show ¬ Usable tool h from htool)]
    rfl

theorem attempt_apply (file : Path) (key : String) (tool : Path) (h : Host) :
    Attempt file key tool h ((apply file key tool).run h).1 ((apply file key tool).run h).2 := by
  unfold apply
  by_cases htool : Usable tool h
  · have hvalid : (ExceptT.mk (validate tool)).run.run h = (.ok (), h) :=
      (run_validate tool h).trans (by rw [if_pos htool])
    rw [HostM.run_bind_ok hvalid]
    have hisFile : (liftM (HostM.isFile file) : ExceptT ConfigureFailure HostM Bool).run.run h
        = (.ok (h.files.isFile h.cwd file), h) := rfl
    rw [HostM.run_bind_ok hisFile]
    cases hfile : h.files.isFile h.cwd file with
    | false => exact .absent htool hfile
    | true =>
      simp only [Bool.not_true, Bool.false_eq_true, if_false]
      obtain ⟨place, hplace⟩ := FileTree.hasFile_of_isFile hfile
      obtain ⟨bytes, hbytes⟩ := hplace.read
      have hread : (ExceptT.mk (do return (← HostM.readText file).mapError .io) :
          ExceptT ConfigureFailure HostM String).run.run h
          = ((h.files.readText h.cwd file).mapError .io, h) := rfl
      cases hdecode : decode? bytes with
      | none =>
        have htext : h.files.readText h.cwd file = .error .notUtf8 := by
          rw [FileTree.readText_eq hbytes, hdecode]
        rw [htext] at hread
        rw [HostM.run_bind_error hread]
        exact .unreadable htool hbytes hdecode
      | some content =>
        have htext : h.files.readText h.cwd file = .ok content := by
          rw [FileTree.readText_eq hbytes, hdecode]
        rw [htext] at hread
        rw [HostM.run_bind_ok hread]
        cases hassign : Assignment.assign? content key tool.text with
        | none => exact .unset htool htext hassign
        | some updated =>
          dsimp only
          by_cases hsame : updated = content
          · subst hsame
            rw [if_pos rfl]
            exact .kept htext hassign hplace (Progress.sameFiles_log _ _ _ h)
          · rw [if_neg hsame]
            have hwrite : (ExceptT.mk (do return (← HostM.writeText file updated).mapError .io) :
                ExceptT ConfigureFailure HostM Unit).run.run h
                = (.ok (), { h with files := h.files.put place (.file (encode updated)) }) := by
              change (HostM.writeText file updated >>= fun result => pure (result.mapError _)).run h = _
              rw [HostM.run_bind, HostM.run_writeText_ok (hplace.write (encode updated))]
              rfl
            rw [HostM.run_bind_ok hwrite]
            exact .written htext hassign hplace (Progress.sameFiles_log _ _ _ _)
  · have hvalid : (ExceptT.mk (validate tool)).run.run h = (.error (.invalidDisassembler tool.text), h) :=
      (run_validate tool h).trans (by rw [if_neg htool])
    rw [HostM.run_bind_error hvalid]
    exact .unusable htool

/-- The file has bytes that are no text. -/
def Undecodable (file : Path) (h : Host) : Prop :=
  ∃ bytes, h.files.read h.cwd file = .ok bytes ∧ decode? bytes = none

theorem not_undecodable_of_read {text : String} (hread : h.files.read h.cwd file = .ok (encode text)) :
    ¬ Undecodable file h := by
  rintro ⟨bytes, hbytes, hdecode⟩
  obtain rfl : encode text = bytes := Except.ok.inj (hread.symm.trans hbytes)
  rw [decode?_eq_some.mpr rfl] at hdecode
  cases hdecode

/-- A failure with a usable tool is forgiven unless the file has bytes that are no text. -/
theorem Attempt.isForgiven_iff {failure : ConfigureFailure} (husable : Usable tool h)
    (hattempt : Attempt file key tool h (.error failure) h') :
    isForgiven failure = true ↔ ¬ Undecodable file h := by
  cases hattempt with
  | unusable htool => exact absurd husable htool
  | absent htool hfile =>
    refine ⟨fun _ => ?_, fun _ => rfl⟩
    rintro ⟨bytes, hbytes, _⟩
    rw [FileTree.isFile_of_read hbytes] at hfile
    cases hfile
  | unreadable htool hread hbytes => exact ⟨nofun, fun hdecodable => absurd ⟨_, hread, hbytes⟩ hdecodable⟩
  | unset htool hread hassign =>
    exact ⟨fun _ => not_undecodable_of_read (FileTree.read_of_readText hread), fun _ => rfl⟩

theorem Attempt.eq_of_error {failure : ConfigureFailure}
    (hattempt : Attempt file key tool h (.error failure) h') : h' = h := by
  cases hattempt <;> rfl

/-- After the path was written or found to be there already, the file has it, and no path leads elsewhere. -/
theorem Attempt.assigned {changed : Bool} (hattempt : Attempt file key tool h (.ok changed) h') :
    ∃ before after place, h.files.read h.cwd file = .ok (encode before) ∧
      Assignment.assign? before key tool.text = some after ∧ h'.files.HasFile h'.cwd file place ∧
      h'.files.read h'.cwd file = .ok (encode after) ∧
      ∀ path, h'.files.resolve h'.cwd path = h.files.resolve h.cwd path := by
  cases hattempt with
  | @kept content place _ hread hassign hplace hfiles =>
    have hbytes := FileTree.read_of_readText hread
    obtain ⟨hsame, hcwd⟩ := hfiles
    exact ⟨content, content, place, hbytes, hassign, by rw [hsame, hcwd]; exact hplace,
      by rw [hsame, hcwd]; exact hbytes, fun path => by rw [hsame, hcwd]⟩
  | @written content updated place _ hread hassign hplace hfiles =>
    obtain ⟨hsame, hcwd⟩ := hfiles
    refine ⟨content, updated, place, FileTree.read_of_readText hread, hassign, ?_, ?_, fun path => ?_⟩
    · rw [hsame, hcwd]
      exact hplace.put (encode updated)
    · rw [hsame, hcwd]
      exact FileTree.read_put hplace.not_directory hplace.resolve (encode updated)
    · rw [hsame, hcwd]
      exact hplace.resolve_put (encode updated) h.cwd path

end Disassembler

/-- Storing a record leaves a file as it is, unless it is the file of the record. -/
theorem Progress.read_after_save {checkout file : Path} {p : Progress} {h h' : Host} {place : Place} {bytes : Bytes}
    (hsave : (save checkout p).run h = (.ok (), h')) (hfile : h.files.HasFile h.cwd file place)
    (hread : h.files.read h.cwd file = .ok bytes) :
    (h.files.resolve h.cwd (path checkout) = .ok place → h'.files.read h'.cwd file = .ok (encode p.text)) ∧
      (h.files.resolve h.cwd (path checkout) ≠ .ok place → h'.files.read h'.cwd file = .ok bytes) := by
  cases hgit : h.files.present h.cwd (directory checkout) with
  | false =>
    obtain ⟨_, hrun, hsame, hcwd⟩ := save_of_absent hgit p
    cases hrun.symm.trans hsave
    refine ⟨fun hshared => ?_, fun _ => by rw [hsame, hcwd]; exact hread⟩
    -- The record lies in the directory of source control, so there is none.
    obtain ⟨record, hrecord⟩ := FileTree.HasFile.read ⟨hshared, hfile.node⟩
    have hnone := recordBytes_of_absent hgit
    rw [Host.recordBytes, hrecord] at hnone
    cases hnone
  | true =>
    obtain ⟨files, hwrite, rfl⟩ := write_of_save hsave hgit
    obtain ⟨other, hother, hnode, rfl⟩ := FileTree.write_ok hwrite
    refine ⟨fun hshared => ?_, fun hapart => ?_⟩
    · obtain rfl : other = place := Except.ok.inj (hother.symm.trans hshared)
      exact FileTree.read_put hnode hfile.resolve _
    · obtain ⟨node, hsome, _⟩ := hfile.node
      have hne : place ≠ other := by
        rintro rfl
        exact hapart hother
      exact (FileTree.read_put_of_ne hfile.resolve hnode hne hsome _).trans hread

/-! ## The last stage on a host -/

namespace Procedure

section

variable {α β : Type} {x : Step HostM α} {f : α → Step HostM β} {r r' : Report} {h h' : Host}

theorem run_bind_ok {a : α} (hx : (x.run.run r).run h = ((.ok a, r'), h')) :
    ((x >>= f).run.run r).run h = ((f a).run.run r').run h' := by
  rw [run_bind, HostM.run_bind, hx]

theorem run_bind_error {failure : Failure} (hx : (x.run.run r).run h = ((.error failure, r'), h')) :
    ((x >>= f).run.run r).run h = ((.error failure, r'), h') := by
  rw [run_bind, HostM.run_bind, hx]
  rfl

end

open Disassembler

variable {source : SourceControl HostM} {environment packages : Provisioner HostM} {quiet : Bool} {plan : Plan}
  {progress : Progress} {r : Report} {h : Host}

/-- What the last stage comes to. -/
inductive Configured (plan : Plan) (progress : Progress) (r : Report) (h : Host) :
    Except Failure Unit → Report → Host → Prop
  | noTool {note : Option String} {h' : Host} (htool : plan.disassembler = none) (hfiles : h.SameFiles h') :
      Configured plan progress r h (.ok ()) (guided plan none none (r.record .configured .skipped note)) h'
  | unapplied {tool : Path} {failure : ConfigureFailure} {note : Option String} {h' : Host}
      (htool : plan.disassembler = some tool)
      (hattempt : Attempt plan.disassemblerConfigPath plan.disassemblerKey tool h (.error failure) h)
      (hforgiven : isForgiven failure = true) (hdetected : plan.disassemblerDetected = true)
      (hfiles : h.SameFiles h') :
      Configured plan progress r h (.ok ()) (guided plan none (some tool) (r.record .configured .skipped note)) h'
  | refused {tool : Path} {failure : ConfigureFailure} (htool : plan.disassembler = some tool)
      (hattempt : Attempt plan.disassemblerConfigPath plan.disassemblerKey tool h (.error failure) h)
      (hfatal : ¬ (isForgiven failure = true ∧ plan.disassemblerDetected = true)) :
      Configured plan progress r h (.error (.configure failure)) r h
  | applied {tool : Path} {changed : Bool} {h₁ h₂ h' : Host} {t : Instant} {stored : Except IoError Unit}
      (htool : plan.disassembler = some tool)
      (hattempt : Attempt plan.disassemblerConfigPath plan.disassemblerKey tool h (.ok changed) h₁)
      (hfiles : h₁.SameFiles h₂)
      (hstore : (Progress.save plan.checkout (progress.mark .configured t)).run h₂ = (stored, h')) :
      Configured plan progress r h (stored.mapError .io)
        (guided plan (some tool) none (r.record .configured .ran none)) h'

section

variable (c : Collaborators HostM)

theorem run_reach_on_host (stage : Stage) (outcome : Outcome) (note : Option String) (r : Report) (h : Host) :
    ((reach c stage outcome note).run.run r).run h =
      ((.ok (), r.record stage outcome note),
        ((c.workspace.log .debug (transition r stage outcome)).run h).2) := rfl

theorem run_call_on_host {α : Type} (op : HostM α) (r : Report) (h : Host) :
    ((call op).run.run r).run h = ((.ok (op.run h).1, r), (op.run h).2) := rfl

theorem run_guide_on_host (applied suggested : Option Path) (r : Report) (h : Host) :
    ((guide plan applied suggested : Step HostM Unit).run.run r).run h =
      ((.ok (), guided plan applied suggested r), h) := rfl

end

variable {c : Collaborators HostM} {r' : Report} {h' : Host}

theorem run_complete_on_host (hc : c.workspace = .onHost quiet) (plan : Plan) (progress : Progress) (stage : Stage)
    (r : Report) (h : Host) :
    ∃ t h₁ stored h', h.SameFiles h₁ ∧
      (Progress.save plan.checkout (progress.mark stage t)).run h₁ = (stored, h') ∧
      ((complete c plan progress stage).run.run r).run h =
        (((stored.mapError .io).map fun _ => progress.mark stage t, r), h') := by
  obtain ⟨t, h₁, hnow, hfiles⟩ : ∃ t h₁, HostM.now.run h = (t, h₁) ∧ h.SameFiles h₁ := ⟨_, _, rfl, rfl, rfl⟩
  obtain ⟨stored, h', hstore⟩ : ∃ stored h',
      (Progress.save plan.checkout (progress.mark stage t)).run h₁ = (stored, h') := ⟨_, _, rfl⟩
  refine ⟨t, h₁, stored, h', hfiles, hstore, ?_⟩
  have hclock : ((call HostM.now : Step HostM Instant).run.run r).run h = ((.ok t, r), h₁) := by
    rw [run_call_on_host, hnow]
  have hsave : ((call (Progress.save plan.checkout (progress.mark stage t)) :
      Step HostM (Except IoError Unit)).run.run r).run h₁ = ((.ok stored, r), h') := by
    rw [run_call_on_host, hstore]
  rw [complete, hc]
  change ((call HostM.now >>= _).run.run r).run h = _
  rw [run_bind_ok hclock]
  change ((((call (Progress.save _ _) >>= _ : Step HostM Unit)) >>= _).run.run r).run h₁ = _
  cases stored with
  | ok u => rw [run_bind_ok ((run_bind_ok hsave).trans rfl)]; rfl
  | error e => rw [run_bind_error ((run_bind_ok hsave).trans rfl)]; rfl

theorem configured_of_run (hc : c.workspace = .onHost quiet) {result : Except Failure Unit}
    (hrun : ((configure c plan progress).run.run r).run h = ((result, r'), h')) :
    Configured plan progress r h result r' h' := by
  have hlog : ∀ level message (h : Host), h.SameFiles ((c.workspace.log level message).run h).2 := by
    intro level message h
    rw [hc]
    exact Progress.sameFiles_log level logTarget message h
  unfold configure at hrun
  cases htool : plan.disassembler with
  | none =>
    simp only [htool] at hrun
    rw [run_bind_ok (run_reach_on_host c ..), run_guide_on_host] at hrun
    cases hrun
    exact .noTool htool (hlog ..)
  | some tool =>
    have hattempt : Attempt plan.disassemblerConfigPath plan.disassemblerKey tool h
        ((c.workspace.applySetting plan.disassemblerConfigPath plan.disassemblerKey tool).run h).1
        ((c.workspace.applySetting plan.disassemblerConfigPath plan.disassemblerKey tool).run h).2 := by
      rw [hc]
      exact attempt_apply ..
    simp only [htool] at hrun
    rw [run_bind_ok (run_call_on_host ..)] at hrun
    generalize (c.workspace.applySetting plan.disassemblerConfigPath plan.disassemblerKey tool).run h = out
      at hattempt hrun
    obtain ⟨attempted, h₁⟩ := out
    cases attempted with
    | ok changed =>
      dsimp only at hrun
      rw [run_bind_ok (run_reach_on_host c ..), run_bind_ok (run_guide_on_host ..)] at hrun
      have hfiles := hlog .debug (transition r .configured .ran) h₁
      generalize ((c.workspace.log .debug (transition r .configured .ran)).run h₁).2 = h₂ at hrun hfiles
      obtain ⟨t, h₃, stored, h₄, hclock, hstore, hcomplete⟩ :=
        run_complete_on_host hc plan progress .configured
          (guided plan (some tool) none (r.record .configured .ran none)) h₂
      have hresult : result = stored.mapError .io ∧
          r' = guided plan (some tool) none (r.record .configured .ran none) ∧ h' = h₄ := by
        cases stored with
        | ok u =>
          rw [run_bind_ok hcomplete] at hrun
          cases hrun
          exact ⟨rfl, rfl, rfl⟩
        | error e =>
          rw [run_bind_error hcomplete] at hrun
          cases hrun
          exact ⟨rfl, rfl, rfl⟩
      obtain ⟨rfl, rfl, rfl⟩ := hresult
      exact .applied htool hattempt (hfiles.trans hclock) hstore
    | error failure =>
      obtain rfl := hattempt.eq_of_error
      dsimp only at hrun
      by_cases hforgiven : (isForgiven failure && plan.disassemblerDetected) = true
      · rw [if_pos hforgiven, run_bind_ok (run_call_on_host ..), run_bind_ok (run_reach_on_host c ..),
          run_guide_on_host] at hrun
        rw [Bool.and_eq_true] at hforgiven
        cases hrun
        exact .unapplied htool hattempt hforgiven.1 hforgiven.2 ((hlog ..).trans (hlog ..))
      · rw [if_neg hforgiven] at hrun
        rw [Bool.and_eq_true] at hforgiven
        cases hrun
        exact .refused htool hattempt hforgiven

/-! ## Before the last stage -/

/-- The report of a run that has not come to its last stage. -/
structure Untouched (r : Report) : Prop where
  guidance : r.guidance = none
  stages : ∀ record ∈ r.stages, record.stage ≠ .configured

theorem Untouched.record (hr : Untouched r) {stage : Stage} (hstage : stage ≠ .configured) (outcome : Outcome)
    (note : Option String) : Untouched (r.record stage outcome note) := by
  refine ⟨hr.guidance, fun record hrecord => ?_⟩
  rcases List.mem_append.mp hrecord with hrecord | hrecord
  · exact hr.stages record hrecord
  · rw [List.mem_singleton.mp hrecord]
    exact hstage

/-- Surroundings that answer anything. -/
def anything : Surroundings Unit := fun _ _ _ => True

theorem quiet_anything : anything.Quiet := fun _ _ _ _ _ _ => rfl

/-- A failure before the last stage. -/
def FailsBefore (f : Failure) (r : Report) (_ : Unit) : Prop := f.kind ≠ .configure ∧ Untouched r

section

open Dialogue

variable {Q : Progress → Report → Unit → Prop} {stage : Stage} {ε : Type}

theorem Untouched.failsBefore (hr : Untouched r) {f : Failure} (hkind : (f.kind == .configure) = false) :
    FailsBefore f r () :=
  ⟨beq_eq_false_iff_ne.mp hkind, hr⟩

theorem Untouched.completed (hr : Untouched r) :
    Completed anything (fun _ => True) FailsBefore plan progress stage (fun _ r _ => Untouched r) r () := by
  refine ⟨trivial, fun t _ => keeps_anyway fun result _ => ?_⟩
  cases result with
  | ok u => exact hr
  | error e => exact hr.failsBefore rfl

theorem Untouched.advances (hr : Untouched r) (hstage : stage ≠ .configured)
    {op : Dialogue (Except ε Unit)} {q : Question} {made : Except ε Unit → Exchange} {wrap : ε → Failure}
    (hop : Asks op q made) (hwrap : ∀ e, ((wrap e).kind == .configure) = false) :
    Advances anything (fun _ => True) FailsBefore plan progress stage op wrap (fun _ r _ => Untouched r) r () := by
  refine hop.advances (fun _ _ => trivial) (fun e _ _ => hr.failsBefore (hwrap e)) fun _ _ => ?_
  exact reached_anyway fun _ => (hr.record hstage .ran none).completed

variable {environment packages : String}

theorem Untouched.acquire (hr : Untouched r) :
    Step.Holds anything (fun _ => True) FailsBefore (acquire (.asked environment packages) plan)
      (fun p r s => Completed anything (fun _ => True) FailsBefore plan p .cloned (fun _ r _ => Untouched r) r s)
      r () := by
  refine holds_acquire_anyway quiet_anything (fun _ _ => hr.failsBefore rfl) fun _ _ _ _ => ?_
  exact (hr.record (by decide) ..).completed

theorem Untouched.pin (hr : Untouched r) :
    Step.Holds anything (fun _ => True) FailsBefore (pin (.asked environment packages) plan progress)
      (fun _ r _ => Untouched r) r () :=
  holds_pin quiet_anything trivial (fun _ _ => reached_anyway fun _ => hr.record (by decide) ..)
    fun revision _ _ => hr.advances (by decide) (asks_checkout _ revision) fun _ => rfl

theorem Untouched.sync (hr : Untouched r) :
    Step.Holds anything (fun _ => True) FailsBefore (sync (.asked environment packages) plan progress)
      (fun _ r _ => Untouched r) r () :=
  holds_sync quiet_anything trivial (fun _ _ => reached_anyway fun _ => hr.record (by decide) ..)
    fun _ _ => hr.advances (by decide) (asks_pull _) fun _ => rfl

theorem Untouched.provision (hr : Untouched r) (hstage : stage ≠ .configured) {p : Provisioner Dialogue}
    {q : Question} {made : Except ProvisionFailure Unit → Exchange} (hop : Asks p.setup q made)
    {wrap : ProvisionFailure → Failure} (hwrap : ∀ e, ((wrap e).kind == .configure) = false) (title : String) :
    Step.Holds anything (fun _ => True) FailsBefore
      (provision (.asked environment packages) plan progress p stage wrap title) (fun _ r _ => Untouched r) r () :=
  holds_provision quiet_anything trivial (fun _ _ => reached_anyway fun _ => hr.record hstage ..)
    fun _ => hr.advances hstage hop hwrap

theorem Untouched.prepare (hr : Untouched r) :
    Step.Holds anything (fun _ => True) FailsBefore (prepare (.asked environment packages) plan)
      (fun _ r _ => Untouched r) r () := by
  refine holds_prepare quiet_anything (keeps_anyway fun result _ => ?_) (fun _ _ _ hr => Untouched.pin hr)
    (fun _ _ _ hr => Untouched.sync hr)
    (fun _ _ _ title hr => Untouched.provision hr (by decide) asks_setupEnvironment (fun _ => rfl) title)
    (fun _ _ _ title hr => Untouched.provision hr (by decide) asks_setupPackages (fun _ => rfl) title)
  cases result with
  | ok u => exact hr.acquire
  | error e => exact hr.failsBefore rfl

end

/-! ## A run and its last stage -/

/-- The host when the last stage begins and when it is over; nothing if the run does not come to it. -/
def configuring (c : Collaborators HostM) (plan : Plan) (h : Host) : Option (Host × Host) :=
  match ((prepare c plan).run.run (.ofPlan plan)).run h with
  | ((.ok progress, r), h₀) => some (h₀, (((configure c plan progress).run.run r).run h₀).2)
  | ((.error _, _), _) => none

/-- How a run goes on from its stages to its end. -/
def Concludes (result : Except Failure Unit) (r : Report) (h : Host) (report : Report) (h' : Host) : Prop :=
  match result with
  | .ok () => ∃ head, report = { r with head }.record .done .ran none
  | .error f => report = r.fail f ∧ h' = h

theorem Concludes.guidance {result : Except Failure Unit} {report : Report}
    (hends : Concludes result r h report h') : report.guidance = r.guidance := by
  cases result with
  | ok u =>
    obtain ⟨head, rfl⟩ := hends
    rfl
  | error f =>
    obtain ⟨rfl, _⟩ := hends
    rfl

theorem Concludes.stages {result : Except Failure Unit} {report : Report}
    (hends : Concludes result r h report h') : ∀ record ∈ r.stages, record ∈ report.stages := by
  intro record hrecord
  cases result with
  | ok u =>
    obtain ⟨head, rfl⟩ := hends
    exact List.mem_append_left _ hrecord
  | error f =>
    obtain ⟨rfl, _⟩ := hends
    exact hrecord

theorem run_of_stages (plan : Plan) {result : Except Failure Unit}
    (hstages : ((stages c plan).run.run (.ofPlan plan)).run h = ((result, r), h')) :
    ∃ report h'', (run c plan (.ofPlan plan)).run h = ((result, report), h'') ∧ Concludes result r h' report h'' := by
  rw [run, HostM.run_bind, hstages]
  cases result with
  | ok u => exact ⟨_, _, rfl, _, rfl⟩
  | error f => exact ⟨_, _, rfl, rfl, rfl⟩

theorem untouched_of_prepare {c : Collaborators HostM} {prepared : Except Failure Progress}
    (hrun : ((prepare c plan).run.run (.ofPlan plan)).run h = ((prepared, r), h')) :
    Untouched r ∧ ∀ f, prepared = .error f → f.kind ≠ .configure := by
  have hstart : Untouched (.ofPlan plan) := ⟨rfl, nofun⟩
  have hholds : Step.Holds anything (fun _ => True) FailsBefore (prepare (questions c) plan)
      (fun _ r _ => Untouched r) (.ofPlan plan) () := hstart.prepare
  obtain ⟨_, hkept, _⟩ := Dialogue.Keeps.hold (R := fun _ _ => True) (c := c) (v := h)
    (fun _ _ _ _ => ⟨(), trivial, trivial⟩) hholds trivial
  rw [← run_hold, hold_prepare, held_questions, hrun] at hkept
  cases prepared with
  | ok progress => exact ⟨hkept, nofun⟩
  | error f =>
    refine ⟨hkept.2, fun f' hf => ?_⟩
    cases hf
    exact hkept.1

theorem run_ends (hc : c.workspace = .onHost quiet) (plan : Plan) (h : Host) :
    ∃ result report h', (run c plan (.ofPlan plan)).run h = ((result, report), h') ∧
      ((configuring c plan h = none ∧ ∃ f r, result = .error f ∧ f.kind ≠ .configure ∧ Untouched r ∧
          report = r.fail f) ∨
        ∃ h₀ h₁ progress r r₁, configuring c plan h = some (h₀, h₁) ∧ Untouched r ∧
          Configured plan progress r h₀ result r₁ h₁ ∧ Concludes result r₁ h₁ report h') := by
  obtain ⟨prepared, r, h₀, hprepare⟩ : ∃ prepared r h₀,
      ((prepare c plan).run.run (.ofPlan plan)).run h = ((prepared, r), h₀) := ⟨_, _, _, rfl⟩
  obtain ⟨huntouched, hkind⟩ := untouched_of_prepare hprepare
  cases prepared with
  | error f =>
    have hstages : ((stages c plan).run.run (.ofPlan plan)).run h = ((.error f, r), h₀) := by
      rw [stages_eq, run_bind_error hprepare]
    obtain ⟨report, h', hrun, rfl, _⟩ := run_of_stages plan hstages
    refine ⟨_, _, _, hrun, .inl ⟨?_, f, r, rfl, hkind f rfl, huntouched, rfl⟩⟩
    rw [configuring, hprepare]
  | ok progress =>
    obtain ⟨result, r₁, h₁, hconfigure⟩ : ∃ result r₁ h₁,
        ((configure c plan progress).run.run r).run h₀ = ((result, r₁), h₁) := ⟨_, _, _, rfl⟩
    have hstages : ((stages c plan).run.run (.ofPlan plan)).run h = ((result, r₁), h₁) := by
      rw [stages_eq, run_bind_ok hprepare, hconfigure]
    obtain ⟨report, h', hrun, hconcludes⟩ := run_of_stages plan hstages
    refine ⟨_, _, _, hrun, .inr ⟨h₀, h₁, progress, r, r₁, ?_, huntouched, configured_of_run hc hconfigure,
      hconcludes⟩⟩
    rw [configuring, hprepare]
    dsimp only
    rw [hconfigure]

end Procedure

end Bringup

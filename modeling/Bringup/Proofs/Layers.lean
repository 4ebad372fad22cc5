import Bringup.Proofs.Detection
import Mathlib.Data.List.Find

/-!
# Layers of settings

The settings of one file or the defaults, under what the environment and the command line say.

* `Settings.base`: the settings that all starts from. `Settings.lower`: the files that are passed over for it.
* `Options.layered`: all layers put together.
* `FileTree.Apart`: trees that differ in files at some places; what is found elsewhere is the same in both.
-/

namespace Bringup

set_option autoImplicit false

open Bringup.Text (Bytes)
open Bringup.Text.Utf8 (encode)

/-! ## Trees that differ in some files -/

/-- Something on the way is not there, or is no directory. -/
def IoError.isMissing (e : IoError) : Bool := e == .notFound || e == .notADirectory

/-- The same, or two failures to find the way. -/
inductive Agrees {α : Type} : Except IoError α → Except IoError α → Prop
  | same (x : Except IoError α) : Agrees x x
  | missing {e e' : IoError} (h : e.isMissing = true) (h' : e'.isMissing = true) : Agrees (.error e) (.error e')

theorem Agrees.bind {α β : Type} {x x' : Except IoError α} {f g : α → Except IoError β} (hx : Agrees x x')
    (hf : ∀ a, x = .ok a → Agrees (f a) (g a)) : Agrees (x >>= f) (x' >>= g) := by
  cases hx with
  | missing h h' => exact .missing h h'
  | same =>
    cases x with
    | error e => exact .same _
    | ok a => exact hf a rfl

/-- The trees differ at most in files at these places. -/
structure FileTree.Apart (places : Place → Prop) (t t' : FileTree) : Prop where
  same : ∀ place, ¬ places place → t'.get? place = t.get? place
  before : ∀ place, places place → t.get? place ≠ some .directory
  after : ∀ place, places place → t'.get? place ≠ some .directory

namespace FileTree

variable {places : Place → Prop} {t t' : FileTree} {cwd : Place} {p : Path}

theorem apart_put {place : Place} (hplace : places place) (hbefore : ∀ p, places p → t.get? p ≠ some .directory)
    (contents : Bytes) : Apart places t (t.put place (.file contents)) where
  same other hother := by
    have hne : other ≠ place := by
      rintro rfl
      exact hother hplace
    rw [t.get?_put_of_ne hne]
  before := hbefore
  after other hother := by
    by_cases heq : other = place
    · rw [heq, t.get?_put_self (ne_root (hbefore place hplace))]
      rintro ⟨⟩
    · rw [t.get?_put_of_ne heq]
      exact hbefore other hother

theorem isMissing_of_needDirectory {place : Place} (h : t.get? place ≠ some .directory) :
    ∃ e, t.needDirectory place = .error e ∧ e.isMissing = true := by
  rw [needDirectory]
  cases hnode : t.get? place with
  | none => exact ⟨_, rfl, rfl⟩
  | some node =>
    cases node with
    | directory => exact absurd hnode h
    | file contents => exact ⟨_, rfl, rfl⟩
    | program rules executable => exact ⟨_, rfl, rfl⟩

theorem Apart.needDirectory (h : Apart places t t') (place : Place) :
    Agrees (t.needDirectory place) (t'.needDirectory place) := by
  by_cases hplace : places place
  · obtain ⟨e, he, hmissing⟩ := isMissing_of_needDirectory (h.before place hplace)
    obtain ⟨e', he', hmissing'⟩ := isMissing_of_needDirectory (h.after place hplace)
    rw [he, he']
    exact .missing hmissing hmissing'
  · rw [FileTree.needDirectory, FileTree.needDirectory, h.same place hplace]
    exact .same _

theorem Apart.walk (h : Apart places t t') (place : Place) (pieces : List Text.Raw) :
    Agrees (t.walk place pieces) (t'.walk place pieces) := by
  induction pieces generalizing place with
  | nil => exact .same _
  | cons piece pieces ih =>
    rw [FileTree.walk, FileTree.walk]
    refine (h.needDirectory place).bind fun _ _ => ?_
    split
    · exact ih place
    · split
      · exact ih _
      · split
        · exact .same _
        · exact ih _

theorem Apart.resolve (h : Apart places t t') (cwd : Place) (p : Path) :
    Agrees (t.resolve cwd p) (t'.resolve cwd p) := by
  rw [FileTree.resolve, FileTree.resolve]
  split
  · exact .same _
  · split
    · exact .same _
    · split
      · exact .same _
      · exact h.walk ..

/-- The path leads to none of the places. -/
def Misses (places : Place → Prop) (t : FileTree) (cwd : Place) (p : Path) : Prop :=
  ∀ place, t.resolve cwd p = .ok place → ¬ places place

theorem Apart.find (h : Apart places t t') (hp : t.Misses places cwd p) : Agrees (t.find cwd p) (t'.find cwd p) := by
  rw [FileTree.find, FileTree.find]
  refine (h.resolve cwd p).bind fun place hplace => ?_
  rw [h.same place (hp place hplace)]
  exact .same _

theorem Apart.isFile (h : Apart places t t') (hp : t.Misses places cwd p) : t'.isFile cwd p = t.isFile cwd p := by
  rw [FileTree.isFile, FileTree.isFile]
  generalize hbefore : t.find cwd p = x
  generalize hafter : t'.find cwd p = x'
  have hfind := h.find hp
  rw [hbefore, hafter] at hfind
  cases hfind with
  | same => rfl
  | missing _ _ => rfl

theorem Apart.readText_of_isFile (h : Apart places t t') (hp : t.Misses places cwd p) (hfile : t.isFile cwd p = true) :
    t'.readText cwd p = t.readText cwd p := by
  rw [FileTree.readText, FileTree.readText, FileTree.read, FileTree.read]
  rw [FileTree.isFile] at hfile
  generalize hbefore : t.find cwd p = x at hfile
  generalize hafter : t'.find cwd p = x'
  have hfind := h.find hp
  rw [hbefore, hafter] at hfind
  cases hfind with
  | same => rfl
  | missing _ _ => cases hfile

theorem Apart.readText (h : Apart places t t') (hp : t.Misses places cwd p) :
    Agrees (t.readText cwd p) (t'.readText cwd p) := by
  rw [FileTree.readText, FileTree.readText, FileTree.read, FileTree.read]
  exact ((h.find hp).bind fun _ _ => .same _).bind fun _ _ => .same _

end FileTree

/-! ## The base -/

namespace Settings

/-- The files that may be read when none is named, the first one first. -/
def candidates (workdir : Path) (home : Option Path) : List Path := localPath workdir :: (globalPath home).toList

/-- The one file that is read. -/
def baseFile (named : Option Path) (workdir : Path) (h : Host) : Option Path :=
  named.or ((candidates workdir h.home).find? fun file => h.files.isFile h.cwd file)

/-- The files that are not read because another one is. -/
def lower (named : Option Path) (workdir : Path) (h : Host) : List Path :=
  match named with
  | some _ => candidates workdir h.home
  | none => ((candidates workdir h.home).dropWhile fun file => !h.files.isFile h.cwd file).drop 1

/-- The settings in a file of a host. -/
def inFile (h : Host) (file : Path) : Except Failure Settings :=
  match h.files.readText h.cwd file with
  | .error e => .error (.io e)
  | .ok text => (ofText text).mapError fun reason => .settings (.parsing file.text reason)

/-- The settings before the environment and the command line are looked at. -/
def base (named : Option Path) (workdir : Path) (h : Host) : Except Failure Settings :=
  match baseFile named workdir h with
  | some file => inFile h file
  | none => .ok {}

theorem run_choose (named : Option Path) (workdir : Path) (h : Host) :
    (choose named workdir).run h = (baseFile named workdir h, h) := by
  have hrun : ∀ file, (HostM.isFile file).run h = (h.files.isFile h.cwd file, h) := fun _ => rfl
  cases named with
  | some file => rfl
  | none =>
    rw [choose, HostM.run_bind, hrun, baseFile, candidates, Option.none_or, List.find?_cons]
    cases h.files.isFile h.cwd (localPath workdir) with
    | true => rfl
    | false =>
      have hget : (get : HostM Host).run h = (h, h) := rfl
      rw [if_neg Bool.false_ne_true, HostM.run_bind, hget]
      dsimp only
      cases globalPath h.home with
      | none => rfl
      | some file =>
        rw [HostM.run_bind, hrun, Option.toList_some, List.find?_cons]
        cases h.files.isFile h.cwd file with
        | true => rfl
        | false => rfl

theorem run_load (named : Option Path) (workdir : Path) (h : Host) :
    ∃ h', (load named workdir).run h = (base named workdir h, h') ∧ h.Like h' := by
  rw [load, HostM.run_bind, run_choose, base]
  dsimp only
  cases baseFile named workdir h with
  | none => exact ⟨_, rfl, Host.like_log ..⟩
  | some file =>
    have hlike := Host.like_log .debug logTarget s!"Loading configuration from {file.text}" h
    refine ⟨_, ?_, hlike⟩
    dsimp only
    rw [read, HostM.run_bind, HostM.run_bind, HostM.run_readText, inFile, hlike.files.1, hlike.files.2]
    dsimp only
    cases h.files.readText h.cwd file with
    | error e => rfl
    | ok text => rfl

end Settings

/-! ## What a file cannot set -/

theorem ok_of_bind {ε α β : Type} {x : Except ε α} {f : α → Except ε β} {b : β} (h : (x >>= f) = .ok b) :
    ∃ a, x = .ok a ∧ f a = .ok b := by
  cases x with
  | error e => cases h
  | ok a => exact ⟨a, rfl, h⟩

theorem ok_of_mapError {ε ε' α : Type} {x : Except ε α} {f : ε → ε'} {a : α} (h : x.mapError f = .ok a) :
    x = .ok a := by
  cases x with
  | error e => cases h
  | ok b =>
    cases h
    rfl

namespace Settings

open Bringup.Toml (Value)

/-- Setting the field keeps a property of the record. -/
def Field.Keeps {α : Type} (P : α → Prop) (field : Field α) : Prop := ∀ a v b, field.set a v = .ok b → P a → P b

theorem foldlM_keeps {ι α : Type} {P : α → Prop} {f : α → ι → Decoded α} {xs : List ι}
    (hf : ∀ x ∈ xs, ∀ a b, f a x = .ok b → P a → P b) {a b : α} (h : xs.foldlM f a = .ok b) (ha : P a) : P b := by
  induction xs generalizing a with
  | nil =>
    cases h
    exact ha
  | cons x xs ih =>
    rw [List.foldlM_cons] at h
    obtain ⟨c, hx, hxs⟩ := ok_of_bind h
    exact ih (fun y hy => hf y (List.mem_cons_of_mem _ hy)) hxs (hf x List.mem_cons_self a c hx ha)

section

variable {α : Type} {P : α → Prop} {fields : List (Field α)} {default a : α}

theorem ofTable_keeps (hfields : ∀ field ∈ fields, field.Keeps P) (hdefault : P default) {entries : List Toml.Entry}
    (h : ofTable fields default entries = .ok a) : P a := by
  refine foldlM_keeps (fun entry _ b c htake hb => ?_) h hdefault
  rw [takeEntry] at htake
  cases hfield : fields.find? fun f => f.name == entry.1.name with
  | some field =>
    rw [hfield] at htake
    exact hfields field (List.mem_of_find?_eq_some hfield) b entry.2 c htake hb
  | none =>
    rw [hfield] at htake
    obtain ⟨_, _, hsame⟩ := ok_of_bind htake
    cases hsame
    exact hb

theorem record_keeps (hfields : ∀ field ∈ fields, field.Keeps P) (hdefault : P default) {expected : String} {v : Value}
    (h : record expected fields default v = .ok a) : P a := by
  cases v with
  | table span style entries => exact ofTable_keeps hfields hdefault h
  | array span style items =>
    refine foldlM_keeps (fun pair hpair b c hset hb => ?_) h hdefault
    exact hfields pair.1 (List.of_mem_zip hpair).1 b pair.2 c hset hb
  | time span =>
    cases h
    exact hdefault
  | _ => cases h

end

theorem detected_of_ofText {text : String} {s : Settings} (h : ofText text = .ok s) :
    s.disassembler.detected = false := by
  have htool : ∀ field ∈ disassemblerFields, field.Keeps fun d => d.detected = false := by
    simp only [disassemblerFields, List.forall_mem_cons, Field.Keeps]
    refine ⟨?_, ?_, ?_, ?_, fun _ hfield => absurd hfield List.not_mem_nil⟩ <;>
    · intro d v d' hset hd
      obtain ⟨_, _, hset⟩ := ok_of_bind hset
      cases hset
      exact hd
  have hdocument : ∀ field ∈ documentFields, field.Keeps fun s => s.disassembler.detected = false := by
    simp only [documentFields, List.forall_mem_cons, Field.Keeps]
    refine ⟨fun s v s' hset hs => ?_, fun s v s' hset hs => ?_, fun s v s' hset _ => ?_,
      fun _ hfield => absurd hfield List.not_mem_nil⟩
    · obtain ⟨_, _, hset⟩ := ok_of_bind hset
      cases hset
      exact hs
    · obtain ⟨_, _, hset⟩ := ok_of_bind hset
      cases hset
      exact hs
    · obtain ⟨d, hd, hset⟩ := ok_of_bind hset
      cases hset
      exact record_keeps (P := fun d => d.detected = false) htool rfl hd
  rw [ofText] at h
  cases hparse : Toml.parse? text with
  | none => rw [hparse] at h; cases h
  | some entries =>
    rw [hparse] at h
    exact ofTable_keeps (P := fun s => s.disassembler.detected = false) hdocument rfl (ok_of_mapError h)

theorem detected_of_base {named : Option Path} {workdir : Path} {h : Host} {s : Settings}
    (hbase : base named workdir h = .ok s) : s.disassembler.detected = false := by
  rw [base] at hbase
  cases hfile : baseFile named workdir h with
  | none =>
    rw [hfile] at hbase
    cases hbase
    rfl
  | some file =>
    rw [hfile] at hbase
    dsimp only at hbase
    rw [inFile] at hbase
    cases hread : h.files.readText h.cwd file with
    | error e => rw [hread] at hbase; cases hbase
    | ok text =>
      rw [hread] at hbase
      exact detected_of_ofText (ok_of_mapError hbase)

end Settings

/-! ## All layers -/

/-- The options with the environment in place of those that are missing. -/
def Options.under (given : Options) (env : Variables) : Options :=
  { given with
    revision := given.revision.or env.revision
    disassembler := given.disassembler.or (env.disassembler.map Path.ofText) }

namespace CommandLine

theorem finish_clear {l : Level} {env : Variables} {given : Given} (h : l.finish env = .ok given) :
    l.finish {} = .ok given := by
  obtain ⟨settled, hsettle, hrest⟩ := ok_of_bind h
  have hgiven : settled.given = given := by
    dsimp only at hrest
    split at hrest
    · obtain ⟨_, _, hrest⟩ := ok_of_bind hrest
      exact Except.ok.inj hrest
    · exact Except.ok.inj hrest
  rw [Level.finish, hsettle, ← hgiven]
  dsimp only [bind, Except.bind]
  cases settled.given.disassembler with
  | none => rfl
  | some path => rfl

theorem options_under (command : Option Command) (given : Given) (env : Variables) :
    options command given env = (options command given {}).under env := by
  simp [options, Options.under]

/-- A command line that is understood in some environment is understood in none. -/
theorem parse_clear {env : Variables} {args : List String} {o : Options} (h : parse env args = .ok o) :
    ∃ given, parse {} args = .ok given ∧ o = given.under env := by
  rw [parse] at h ⊢
  obtain ⟨⟨outer, rest⟩, hread, hrest⟩ := ok_of_bind h
  rw [hread]
  cases rest with
  | none =>
    obtain ⟨given, hfinish, hrest⟩ := ok_of_bind hrest
    cases hrest
    refine ⟨options none given {}, ?_, options_under ..⟩
    dsimp only [bind, Except.bind]
    rw [finish_clear hfinish]
    rfl
  | some command =>
    obtain ⟨command, words⟩ := command
    obtain ⟨⟨inner, _⟩, hinner, hrest⟩ := ok_of_bind hrest
    obtain ⟨inside, hinside, hrest⟩ := ok_of_bind hrest
    obtain ⟨outside, houtside, hrest⟩ := ok_of_bind hrest
    cases hrest
    refine ⟨options (some command) (outside.merge inside) {}, ?_, options_under ..⟩
    dsimp only [bind, Except.bind]
    rw [hinner]
    dsimp only
    rw [finish_clear hinside, finish_clear houtside]
    rfl

end CommandLine

/-- What the command line gives, over the environment, over the base; the tool stands in where none of them has a path
and it may be looked for. -/
def Options.layered (given : Options) (env : Variables) (tool : Option Path) (base : Settings) : Settings :=
  let path := (given.disassembler.or (env.disassembler.map Path.ofText)).or base.disassembler.path
  let found := if path.isNone && base.disassembler.detect then tool else none
  { base with
    source := { base.source with
      revision := (given.revision.or env.revision).or base.source.revision
      syncPolicy := given.sync.getD base.source.syncPolicy
      rerunPolicy := if given.resume then .resume else base.source.rerunPolicy }
    disassembler := { base.disassembler with path := path.or found, detected := found.isSome } }

open ToolSearch (located disassemblerTool)

theorem Settings.withDetected_fst {s : Settings} (hdetected : s.disassembler.detected = false) (h : Host) :
    (s.withDetected.run h).1 =
      let found := if s.disassembler.path.isNone && s.disassembler.detect then located disassemblerTool h else none
      { s with disassembler := { s.disassembler with
          path := s.disassembler.path.or found, detected := found.isSome } } := by
  obtain ⟨source, provision, path, detect, configFile, key, detected⟩ := s
  cases hdetected
  rw [withDetected]
  by_cases hlook : (path.isNone && detect) = true
  · have hfound := ToolSearch.findDisassembler_fst h
    rw [if_pos hlook, HostM.run_bind, hfound]
    dsimp only
    rw [if_pos hlook]
    have hnone : path = none := Option.isNone_iff_eq_none.mp (Bool.and_eq_true_iff.mp hlook).1
    cases located disassemblerTool h with
    | none => rw [Option.or_none]; rfl
    | some tool => rw [hnone]; rfl
  · rw [if_neg hlook]
    dsimp only
    rw [if_neg hlook, Option.or_none]
    rfl

theorem Options.resolve_fst (given : Options) (env : Variables) (workdir : Path) (h : Host) :
    (((given.under env).resolve workdir).run h).1 =
      (Settings.base given.config workdir h).map (given.layered env (located disassemblerTool h)) := by
  obtain ⟨h', hload, hlike⟩ := Settings.run_load given.config workdir h
  have hsettings : ((given.under env).settings workdir).run h =
      ((Settings.base given.config workdir h).map (given.under env).applyTo, h') := by
    rw [settings, HostM.run_bind]
    change (((Settings.load given.config workdir).run h).1.map _, ((Settings.load given.config workdir).run h).2) = _
    rw [hload]
  rw [resolve, HostM.run_bind, hsettings]
  cases hbase : Settings.base given.config workdir h with
  | error e => rfl
  | ok base =>
    have hgiven : base.disassembler.detected = false := Settings.detected_of_base hbase
    have hdetected : ((given.under env).applyTo base).disassembler.detected = false := hgiven
    change Except.ok ((((given.under env).applyTo base).withDetected).run h').1 = _
    rw [Settings.withDetected_fst hdetected, ToolSearch.located_of_like hlike]
    rfl

theorem Options.detected_layered (given : Options) (env : Variables) (tool : Option Path) (base : Settings) :
    (given.layered env tool base).disassembler.detected = true ↔
      (given.disassembler = none ∧ env.disassembler = none ∧ base.disassembler.path = none) ∧
        base.disassembler.detect = true ∧ tool.isSome = true := by
  simp only [layered]
  split
  · next hlook => simp_all
  · next hlook => simp_all

theorem Options.path_of_detected {given : Options} {env : Variables} {tool : Option Path} {base : Settings}
    (h : (given.layered env tool base).disassembler.detected = true) :
    (given.layered env tool base).disassembler.path = tool := by
  obtain ⟨⟨hgiven, henv, hbase⟩, hdetect, _⟩ := (given.detected_layered env tool base).mp h
  simp [layered, hgiven, henv, hbase, hdetect]

/-! ## Files that do not count -/

/-- The hosts differ at most in files at these places. -/
structure Host.Beside (places : Place → Prop) (h h' : Host) : Prop where
  files : h.files.Apart places h'.files
  standing : h'.standing = h.standing

namespace Host.Beside

variable {places : Place → Prop} {h h' : Host}

theorem cwd (hbeside : h.Beside places h') : h'.cwd = h.cwd := congrArg Standing.cwd hbeside.standing

theorem home (hbeside : h.Beside places h') : h'.home = h.home := congrArg Standing.home hbeside.standing

theorem located (hbeside : h.Beside places h') {name other : String} (hname : Text.Glyph.char '/' ∉ Text.Raw.ofText name)
    (hplain : Path.component? name = some (.normal name)) (hne : name ≠ other)
    (hplaces : ∀ place, places place → ∃ parent : Place, place = parent ++ [Text.Raw.ofText other]) :
    ToolSearch.located name h' = ToolSearch.located name h := by
  have hpath : h'.searchPath = h.searchPath := congrArg Standing.searchPath hbeside.standing
  rw [ToolSearch.located, ToolSearch.located, hbeside.home, hpath, hbeside.cwd]
  refine List.find?_congr fun file hfile => hbeside.files.isFile fun place hplace hin => hne ?_
  obtain ⟨dir, _, rfl⟩ := List.mem_map.mp hfile
  obtain ⟨parent, rfl⟩ := FileTree.resolve_child_place hname hplain hplace
  obtain ⟨parent', hsame⟩ := hplaces _ hin
  exact Text.Raw.ofText_inj.mp (List.singleton_inj.mp (List.append_inj' hsame rfl).2)

end Host.Beside

namespace Settings

variable {named : Option Path} {workdir : Path} {h h' : Host}

/-- Where the files that are not read would stand. -/
def lowerPlaces (named : Option Path) (workdir : Path) (h : Host) (place : Place) : Prop :=
  ∃ file ∈ lower named workdir h, h.files.resolve h.cwd file = .ok place

theorem mem_candidates_of_mem_lower {file : Path} (hfile : file ∈ lower named workdir h) :
    file ∈ candidates workdir h.home := by
  cases named with
  | some _ => exact hfile
  | none => exact (List.dropWhile_sublist _).subset (List.mem_of_mem_drop hfile)

theorem lowerPlaces_child {place : Place} (hplace : lowerPlaces named workdir h place) :
    ∃ parent : Place, place = parent ++ [Text.Raw.ofText fileName] := by
  obtain ⟨file, hfile, hresolve⟩ := hplace
  have hchild : ∃ dir : Path, file = dir.child fileName := by
    rcases List.mem_cons.mp (mem_candidates_of_mem_lower hfile) with rfl | hglobal
    · exact ⟨workdir, rfl⟩
    · obtain ⟨dir, _, rfl⟩ := Option.map_eq_some_iff.mp (Option.mem_toList.mp hglobal)
      exact ⟨dir, rfl⟩
  obtain ⟨dir, rfl⟩ := hchild
  exact FileTree.resolve_child_place (by decide) (by decide) hresolve

/-- Without a file in the working directory no file is passed over. -/
theorem lower_of_not_isFile (hlocal : h.files.isFile h.cwd (localPath workdir) = false) :
    lower none workdir h = [] := by
  rw [lower, candidates, List.dropWhile_cons_of_pos (by rw [hlocal]; rfl)]
  cases globalPath h.home with
  | none => rfl
  | some file =>
    rw [Option.toList_some, List.dropWhile_cons]
    split
    · rfl
    · rfl

theorem baseFile_beside (hbeside : h.Beside (lowerPlaces named workdir h) h')
    (hbase : ∀ file ∈ baseFile named workdir h, h.files.Misses (lowerPlaces named workdir h) h.cwd file) :
    baseFile named workdir h' = baseFile named workdir h := by
  cases named with
  | some file => rfl
  | none =>
    rw [baseFile, baseFile, Option.none_or, Option.none_or, hbeside.home, hbeside.cwd]
    by_cases hlocal : h.files.isFile h.cwd (localPath workdir) = true
    · have hfirst : baseFile none workdir h = some (localPath workdir) := List.find?_cons_of_pos hlocal
      have hsame := hbeside.files.isFile (hbase _ hfirst)
      rw [candidates, List.find?_cons_of_pos hlocal, List.find?_cons_of_pos (hsame.trans hlocal)]
    · have hlower := lower_of_not_isFile (Bool.eq_false_iff.mpr hlocal)
      refine List.find?_congr fun file _ => hbeside.files.isFile fun place _ hplace => ?_
      obtain ⟨passed, hpassed, _⟩ := hplace
      rw [hlower] at hpassed
      cases hpassed

theorem isFile_of_baseFile {file : Path} (hfile : baseFile none workdir h = some file) :
    h.files.isFile h.cwd file = true := by
  rw [baseFile, Option.none_or] at hfile
  exact List.find?_some hfile

/-- Both times a file could not be reached. -/
def Astray (x x' : Except Failure Settings) : Prop :=
  ∃ e e', x = .error (.io e) ∧ x' = .error (.io e') ∧ e.isMissing = true ∧ e'.isMissing = true

/-- The base does not go by the files that are passed over. Only the way to a file that is named may lead through
one of them, and then it leads nowhere. -/
theorem base_beside (hbeside : h.Beside (lowerPlaces named workdir h) h')
    (hbase : ∀ file ∈ baseFile named workdir h, h.files.Misses (lowerPlaces named workdir h) h.cwd file) :
    base named workdir h' = base named workdir h ∨
      named.isSome = true ∧ Astray (base named workdir h) (base named workdir h') := by
  rw [base, base, baseFile_beside hbeside hbase]
  cases hfile : baseFile named workdir h with
  | none => exact .inl rfl
  | some file =>
    have hmisses := hbase file hfile
    dsimp only
    rw [inFile, inFile, hbeside.cwd]
    cases named with
    | none =>
      rw [hbeside.files.readText_of_isFile hmisses (isFile_of_baseFile hfile)]
      exact .inl rfl
    | some _ =>
      generalize hbefore : h.files.readText h.cwd file = x
      generalize hafter : h'.files.readText h.cwd file = x'
      have hread := hbeside.files.readText hmisses
      rw [hbefore, hafter] at hread
      cases hread with
      | same => exact .inl rfl
      | missing hold hnew => exact .inr ⟨rfl, _, _, rfl, rfl, hold, hnew⟩

end Settings

/-- The settings of a command come from one file or the defaults, under the environment and the command line, and do
not go by any file that is passed over. Where a named file cannot be reached, such a file may show in the error. -/
theorem settings_are_layered {env : Variables} {args : List String} {o : Options} (workdir : Path) (h : Host)
    (hparse : CommandLine.parse env args = .ok o) :
    ∃ given, CommandLine.parse {} args = .ok given ∧
      ((o.resolve workdir).run h).1 =
        (Settings.base given.config workdir h).map (given.layered env (located disassemblerTool h)) ∧
      (∀ base s, Settings.base given.config workdir h = .ok base → ((o.resolve workdir).run h).1 = .ok s →
        (s.disassembler.detected = true ↔
          (given.disassembler = none ∧ env.disassembler = none ∧ base.disassembler.path = none) ∧
            base.disassembler.detect = true ∧ (located disassemblerTool h).isSome = true) ∧
        (s.disassembler.detected = true → ∃ tool, s.disassembler.path = some tool ∧
          located disassemblerTool h = some tool ∧ tool.isAbsolute = true ∧ h.files.isFile h.cwd tool = true)) ∧
      ∀ h', h.Beside (Settings.lowerPlaces given.config workdir h) h' →
        (∀ file ∈ Settings.baseFile given.config workdir h,
          h.files.Misses (Settings.lowerPlaces given.config workdir h) h.cwd file) →
        ((o.resolve workdir).run h').1 = ((o.resolve workdir).run h).1 ∨
          given.config.isSome = true ∧
            Settings.Astray ((o.resolve workdir).run h).1 ((o.resolve workdir).run h').1 := by
  obtain ⟨given, hgiven, rfl⟩ := CommandLine.parse_clear hparse
  refine ⟨given, hgiven, given.resolve_fst env workdir h, fun base s hbase hs => ?_, fun h' hbeside hmisses => ?_⟩
  · rw [given.resolve_fst, hbase] at hs
    cases hs
    have hiff := given.detected_layered env (located disassemblerTool h) base
    refine ⟨hiff, fun hdetected => ?_⟩
    obtain ⟨tool, htool⟩ := Option.isSome_iff_exists.mp (hiff.mp hdetected).2.2
    exact ⟨tool, (Options.path_of_detected hdetected).trans htool, htool, ToolSearch.isAbsolute_of_located htool⟩
  · have htool : located disassemblerTool h' = located disassemblerTool h :=
      hbeside.located (by decide) (by decide) (by decide) fun _ => Settings.lowerPlaces_child
    rw [given.resolve_fst, given.resolve_fst, htool]
    rcases Settings.base_beside hbeside hmisses with hsame | ⟨hnamed, e, e', hold, hnew, hmissing⟩
    · rw [hsame]
      exact .inl rfl
    · rw [hold, hnew]
      exact .inr ⟨hnamed, e, e', rfl, rfl, hmissing⟩

/-- A host with settings in the working directory, and none in the home directory. -/
def settledHost : Host where
  files := ⟨[(["work"], .directory),
    (["work", ".fiber-bootstrap.toml"], .file (encode "[source]\nrevision = \"v1\"\n")),
    (["home"], .directory), (["usr"], .directory), (["usr", "bin"], .directory),
    (["usr", "bin", "addr2line"], .program [] true)]⟩
  home := some ⟨"/home"⟩

/-- The same host with a broken file in the home directory. -/
def unsettledHost : Host :=
  { settledHost with files := settledHost.files.put ["home", ".fiber-bootstrap.toml"] (.file (encode "][")) }

theorem lowerPlaces_settledHost (place : Place) :
    Settings.lowerPlaces none ⟨"/work"⟩ settledHost place ↔
      place = (["home", ".fiber-bootstrap.toml"] : Place) := by
  have hlower : Settings.lower none ⟨"/work"⟩ settledHost = [⟨"/home/.fiber-bootstrap.toml"⟩] := by decide +kernel
  have hresolve : settledHost.files.resolve settledHost.cwd ⟨"/home/.fiber-bootstrap.toml"⟩ =
      .ok ["home", ".fiber-bootstrap.toml"] := by decide +kernel
  simp only [Settings.lowerPlaces, hlower, List.mem_singleton, exists_eq_left, hresolve, Except.ok.injEq, eq_comm]

theorem beside_unsettledHost :
    settledHost.Beside (Settings.lowerPlaces none ⟨"/work"⟩ settledHost) unsettledHost := by
  refine ⟨FileTree.apart_put ((lowerPlaces_settledHost _).mpr rfl) (fun place hplace => ?_) _, rfl⟩
  rw [(lowerPlaces_settledHost place).mp hplace]
  decide

theorem settings_on_unsettledHost :
    ∃ o, CommandLine.parse { revision := some "v2" } ["--sync", "latest"] = .ok o ∧
      ((o.resolve ⟨"/work"⟩).run unsettledHost).1 = ((o.resolve ⟨"/work"⟩).run settledHost).1 ∧
      ((o.resolve ⟨"/work"⟩).run settledHost).1 = .ok {
        source := { revision := some "v2", syncPolicy := .latest }
        disassembler := { path := some ⟨"/usr/bin/addr2line"⟩, detected := true } } := by
  have hline : CommandLine.parse {} ["--sync", "latest"] = .ok { sync := some .latest } := rfl
  obtain ⟨o, hparse⟩ : ∃ o, CommandLine.parse { revision := some "v2" } ["--sync", "latest"] = .ok o := ⟨_, rfl⟩
  obtain ⟨given, hgiven, hresolve, -, hbeside⟩ := settings_are_layered ⟨"/work"⟩ settledHost hparse
  cases hline.symm.trans hgiven
  have hlocal : Settings.baseFile none ⟨"/work"⟩ settledHost = some ⟨"/work/.fiber-bootstrap.toml"⟩ := by
    decide +kernel
  have hsame := hbeside unsettledHost beside_unsettledHost fun file hfile place hplace hin => ?_
  · refine ⟨o, hparse, hsame.resolve_right ?_, ?_⟩
    · rintro ⟨⟨⟩, _⟩
    · rw [hresolve]
      decide +kernel
  · cases hlocal.symm.trans hfile
    rw [(lowerPlaces_settledHost place).mp hin] at hplace
    revert hplace
    decide +kernel

/-- A named file is looked for behind a file that is passed over, and the error tells whether that is there. -/
theorem passed_over_file_shows_in_error :
    let o : Options := { config := some ⟨"/home/.fiber-bootstrap.toml/x.toml"⟩ }
    Settings.lower o.config ⟨"/work"⟩ settledHost = [⟨"/work/.fiber-bootstrap.toml"⟩, ⟨"/home/.fiber-bootstrap.toml"⟩] ∧
      ((o.resolve ⟨"/work"⟩).run settledHost).1 = .error (.io .notFound) ∧
      ((o.resolve ⟨"/work"⟩).run unsettledHost).1 = .error (.io .notADirectory) := by
  decide +kernel

end Bringup

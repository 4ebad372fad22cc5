import Bringup.Proofs.RecordText
import Bringup.Report

/-!
# The text of a report

A printed report is read back in two steps: the text as a JSON value, and the value as a report.

* `Json.tree`, `Json.reads_tree`: a reader of JSON values without numbers, which reads what is written of one.
* `Report.ofJson?`: the report that a JSON value holds.
* `Report.isUnicode`: every path of the report is Unicode.
* `Report.json_eq`, `Report.ofBytes?_pretty`: such a report is written and read back as it was, and any other has no
  text.
-/

namespace Bringup

set_option autoImplicit false

open Bringup.Text Utf8 Json

/-! ## Values -/

namespace Json

/-- A string or a word; what starts with another byte is left to `other`. -/
def leafOr (other : UInt8 → Read Json) : Read Json := do
  let b ← firstByte
  if b == byte '"' then return .str (← string)
  else if b == byte 'n' then do skip; word ['u', 'l', 'l']; return .null
  else if b == byte 't' then do skip; word ['r', 'u', 'e']; return .bool true
  else if b == byte 'f' then do skip; word ['a', 'l', 's', 'e']; return .bool false
  else other b

def addMember (value : Read Json) (before : List (String × Json)) (name : String) : Read (List (String × Json)) := do
  colon
  return before ++ [(name, ← value)]

/-- The members of an object. -/
def object (value : Read Json) : Read (List (String × Json)) := do
  let b ← firstByte
  if b == byte '\x7b' then
    placed (closedBy (nested do skip; members (addMember value) ((← get).rest.length + 1) true []) endObject)
  else wrongType "a map" b

/-- A value without numbers, of at most so many levels. -/
def tree : Nat → Read Json
  | 0 => leafOr fun _ => failAhead .tooDeep
  | levels + 1 => leafOr fun b =>
    if b == byte '[' then return .arr (← list (tree levels)) else return .obj (← object (tree levels))

/-- The value that a text holds. -/
def ofBytes? (text : Bytes) : Option Json := (readAll (tree (nestingLimit - 1)) text).toOption

/-- There are no numbers, and at most so many levels. -/
def isWordy : Nat → Json → Bool
  | _, .null => true
  | _, .bool _ => true
  | _, .str _ => true
  | _, .int _ => false
  | 0, .arr _ => false
  | 0, .obj _ => false
  | levels + 1, .arr items => items.all (isWordy levels)
  | levels + 1, .obj members => members.all fun m => isWordy levels m.2

/-! ## Written values -/

section

variable {value : Read Json} {levels d : Nat}

theorem spelling_renderMembers (level : Nat) (ms : List (String × Json)) :
    spelling (renderMembers level ms) = ms.flatMap fun m => byte ',' :: (spelling (newline level)
      ++ (spelling (quoted m.1) ++ byte ':' :: byte ' ' :: spelling (render level m.2))) := by
  induction ms with
  | nil => rfl
  | cons m ms ih =>
    have hcolon : spelling [':', ' '] = [byte ':', byte ' '] := rfl
    have hcomma : String.utf8EncodeChar ',' = [byte ','] := rfl
    rw [renderMembers, List.flatMap_cons, ← ih, spelling_cons, hcomma]
    simp only [spelling_append, hcolon]
    simp only [List.cons_append, List.nil_append, List.append_assoc]

theorem reading_addMember {text : Bytes} {v : Json} (h : Reads levels value text v) (hd : levels < d)
    (before : List (String × Json)) (name : String) (rest : Bytes) :
    reading (addMember value before name) ⟨byte ':' :: byte ' ' :: (text ++ rest), d⟩
      = (.ok (before ++ [(name, v)]), ⟨rest, d⟩) := by
  have hvalue : reading value ⟨byte ' ' :: (text ++ rest), d⟩ = (.ok v, ⟨rest, d⟩) :=
    h.reads [byte ' '] rest d blank_space hd
  rw [addMember, reading_bind_of_ok (reading_colon _), reading_bind_of_ok hvalue]
  rfl

/-- The members of an object after the first one. -/
theorem reading_moreMembers {level fuel : Nat} {ms : List (String × Json)}
    (hms : ∀ m ∈ ms, Reads levels value (spelling (render level m.2)) m.2) (hd : levels < d) {ws : Bytes}
    (hws : Blank ws) (rest : Bytes) (hfuel : ms.length < fuel) (before : List (String × Json)) :
    reading (members (addMember value) fuel false before)
        ⟨spelling (renderMembers level ms) ++ (ws ++ byte '\x7d' :: rest), d⟩
      = (.ok (before ++ ms), ⟨byte '\x7d' :: rest, d⟩) := by
  rw [spelling_renderMembers]
  induction ms generalizing fuel before with
  | nil =>
    obtain ⟨n, rfl⟩ : ∃ n, fuel = n + 1 := ⟨fuel - 1, by omega⟩
    rw [List.append_nil]
    exact reading_members_end hws rest d
  | cons m ms ih =>
    obtain ⟨n, rfl⟩ : ∃ n, fuel = n + 1 := ⟨fuel - 1, by omega⟩
    have hm := hms m (List.mem_cons_self ..)
    have hrest := ih (fun y hy => hms y (List.mem_cons_of_mem _ hy)) (Nat.lt_of_succ_lt_succ hfuel)
      (before ++ [(m.1, m.2)])
    rw [List.flatMap_cons]
    simp only [List.cons_append, List.append_assoc]
    rw [reading_members_next (blank_newline level), reading_bind_of_ok (reading_addMember hm hd before m.1 _), hrest]
    simp

theorem reading_object {ws bs rest : Bytes} {ms : List (String × Json)} (hws : Blank ws) (hd : 1 < d)
    (hmembers : reading (members (addMember value) (bs.length + 1) true []) ⟨bs, d - 1⟩
      = (.ok ms, ⟨byte '\x7d' :: rest, d - 1⟩)) :
    reading (object value) ⟨ws ++ byte '\x7b' :: bs, d⟩ = (.ok ms, ⟨rest, d⟩) := by
  rw [object, reading_bind_of_ok (reading_firstByte hws rfl _), if_pos BEq.rfl]
  exact reading_bracketed hd hmembers (reading_endObject blank_nil rest)

/-- A written object is read. -/
theorem reads_object {level : Nat} {ms : List (String × Json)}
    (hms : ∀ m ∈ ms, Reads levels value (spelling (render (level + 1) m.2)) m.2) :
    Reads (levels + 1) (object value) (spelling (render level (.obj ms))) ms := by
  cases ms with
  | nil =>
    refine ⟨⟨byte '\x7b', [byte '\x7d'], rfl, rfl, by decide⟩, fun ws rest d hws hd => ?_⟩
    exact reading_object hws (by omega) (reading_members_end blank_nil rest _)
  | cons m ms =>
    let more := spelling (renderMembers (level + 1) ms)
    have htext : spelling (render level (.obj (m :: ms))) =
        byte '\x7b' :: (spelling (newline (level + 1)) ++ (spelling (quoted m.1) ++ (byte ':' :: byte ' ' ::
          (spelling (render (level + 1) m.2) ++ (more ++ (spelling (newline level) ++ [byte '\x7d'])))))) := by
      rw [render, spelling_cons]
      simp only [spelling_append, List.append_assoc]
      rfl
    have hmore : ms.length ≤ more.length := by
      dsimp only [more]
      rw [spelling_renderMembers]
      exact length_le_flatMap (fun m => List.cons_ne_nil _ _) ms
    rw [htext]
    refine ⟨⟨_, _, rfl, rfl, by decide⟩, fun ws rest d hws hd => ?_⟩
    simp only [List.cons_append, List.append_assoc, List.nil_append]
    refine reading_object hws (by omega) ?_
    rw [reading_members_first (blank_newline (level + 1)),
      reading_bind_of_ok (reading_addMember (hms m (List.mem_cons_self ..)) (by omega) [] m.1 _)]
    refine reading_moreMembers (fun y hy => hms y (List.mem_cons_of_mem _ hy)) (by omega) (blank_newline level) rest ?_ _
    simp only [List.length_append, List.length_cons]
    omega

end

theorem reading_leafOr {other : UInt8 → Read Json} {ws : Bytes} {b : UInt8} {d : Nat} (hws : Blank ws)
    (hb : isBlank b = false) (rest : Bytes) :
    reading (leafOr other) ⟨ws ++ b :: rest, d⟩ = reading (leafOr other) ⟨b :: rest, d⟩ := by
  have hhere : reading firstByte ⟨b :: rest, d⟩ = (.ok b, ⟨b :: rest, d⟩) := reading_firstByte blank_nil hb rest
  rw [leafOr, reading_bind_of_ok (reading_firstByte hws hb rest), reading_bind_of_ok hhere]

theorem reads_leafOr (other : UInt8 → Read Json) {value : Json} (hvalue : isWordy 0 value = true) (level : Nat) :
    Reads 0 (leafOr other) (spelling (render level value)) value := by
  cases value with
  | str s =>
    have hstring : Reads 0 string (spelling (quoted s)) s := reads_string rfl
    refine ⟨hstring.starts, fun ws rest d hws hd => ?_⟩
    have hhere := hstring.here hd rest
    rw [render]
    rw [spelling_quoted, List.cons_append] at hhere ⊢
    rw [leafOr, reading_bind_of_ok (reading_firstByte hws rfl _), if_pos BEq.rfl, reading_bind_of_ok hhere]
    rfl
  | null => exact ⟨⟨_, _, rfl, rfl, by decide⟩, fun _ _ _ hws _ => reading_leafOr hws rfl _⟩
  | bool b =>
    cases b with
    | true => exact ⟨⟨_, _, rfl, rfl, by decide⟩, fun _ _ _ hws _ => reading_leafOr hws rfl _⟩
    | false => exact ⟨⟨_, _, rfl, rfl, by decide⟩, fun _ _ _ hws _ => reading_leafOr hws rfl _⟩
  | int n => cases hvalue
  | arr items => cases hvalue
  | obj ms => cases hvalue

/-- A value that starts with a bracket is left to the other reader. -/
theorem Reads.leafOr {levels : Nat} {R : Read Json} {other : UInt8 → Read Json} {b : UInt8} {text : Bytes}
    {value : Json} (h : Reads levels R text value) (hstart : ∃ more, text = b :: more) (hb : isBlank b = false)
    (hother : ∀ rest d, reading (leafOr other) ⟨b :: rest, d⟩ = reading R ⟨b :: rest, d⟩) :
    Reads levels (leafOr other) text value := by
  refine ⟨h.starts, fun ws rest d hws hd => ?_⟩
  have hhere := h.here hd rest
  obtain ⟨more, rfl⟩ := hstart
  rw [List.cons_append] at hhere ⊢
  rw [reading_leafOr hws hb, hother, hhere]

/-- A written value is read back. -/
theorem reads_tree {levels : Nat} {value : Json} (hvalue : isWordy levels value = true) (level : Nat) :
    Reads levels (tree levels) (spelling (render level value)) value := by
  -- The levels go down with each bracket, so the induction is on them and not on the value.
  induction levels generalizing value level with
  | zero => exact reads_leafOr _ hvalue level
  | succ levels ih =>
    cases value with
    | arr items =>
      have hlist : Reads (levels + 1) (list (tree levels)) (spelling (render level (.arr (items.map id)))) items :=
        reads_list fun item hitem => ih (List.all_eq_true.mp hvalue item hitem) (level + 1)
      rw [List.map_id] at hlist
      exact (hlist.map Json.arr).leafOr (b := byte '[') (by cases items <;> exact ⟨_, rfl⟩) rfl fun _ _ => rfl
    | obj ms =>
      have hobject : Reads (levels + 1) (object (tree levels)) (spelling (render level (.obj ms))) ms :=
        reads_object fun m hm => ih (List.all_eq_true.mp hvalue m hm) (level + 1)
      exact (hobject.map Json.obj).leafOr (b := byte '\x7b') (by cases ms <;> exact ⟨_, rfl⟩) rfl fun _ _ => rfl
    | null => exact (reads_leafOr _ rfl level).mono (Nat.zero_le _)
    | bool b => exact (reads_leafOr _ rfl level).mono (Nat.zero_le _)
    | str s => exact (reads_leafOr _ rfl level).mono (Nat.zero_le _)
    | int n => cases hvalue

/-- The printed text of a value holds the value. -/
theorem ofBytes?_pretty {value : Json} (hvalue : isWordy (nestingLimit - 1) value = true) :
    ofBytes? (encode (value.pretty ++ "\n")) = some value := by
  have htext : encode (value.pretty ++ "\n") = spelling (render 0 value) ++ [byte '\n'] := by
    rw [encode, pretty, String.toList_append, String.toList_ofList, List.flatMap_append]
    rfl
  rw [ofBytes?, htext, readAll_of_ok ((reads_tree hvalue 0).here (by decide) [byte '\n']) rfl]
  rfl

end Json

/-! ## Reports as values -/

namespace Json

/-- The member of an object with a name. -/
def member? (name : String) : Json → Option Json
  | .obj members => members.lookup name
  | _ => none

def text? : Json → Option String
  | .str s => some s
  | _ => none

def items? : Json → Option (List Json)
  | .arr items => some items
  | _ => none

/-- What a value holds unless it is `null`. -/
def nullable? {α : Type} (holds? : Json → Option α) : Json → Option (Option α)
  | .null => some none
  | value => (holds? value).map some

end Json

def Path.ofJson? (value : Json) : Option Path := value.text?.map Path.ofText

def Stage.ofJson? (value : Json) : Option Stage :=
  match value.text? with
  | some name => Stage.plainOfText? name
  | none => do return .failed (← FailureKind.ofText? (← (← value.member? "failed").text?))

def Outcome.ofText? (s : String) : Option Outcome := [ran, skipped].find? fun outcome => outcome.text == s

def StageRecord.ofJson? (value : Json) : Option StageRecord := do
  let stage ← Stage.ofJson? (← value.member? "stage")
  let outcome ← Outcome.ofText? (← (← value.member? "outcome").text?)
  let note ← (value.member? "note").mapM Json.text?
  return { stage, outcome, note }

def Guidance.ofJson? (value : Json) : Option Guidance := do
  let configFile ← Path.ofJson? (← value.member? "config_file")
  let key ← (← value.member? "key").text?
  let applied ← (← value.member? "applied").nullable? Path.ofJson?
  let suggested ← (value.member? "suggested").mapM Path.ofJson?
  return { configFile, key, applied, suggested }

/-- The report that a JSON value holds. -/
def Report.ofJson? (value : Json) : Option Report := do
  let checkout ← Path.ofJson? (← value.member? "checkout")
  let revision ← (← value.member? "revision").nullable? Json.text?
  let syncPolicy ← SyncPolicy.ofText? (← (← value.member? "sync_policy").text?)
  let stage ← Stage.ofJson? (← value.member? "stage")
  let stages ← (← (← value.member? "stages").items?).mapM StageRecord.ofJson?
  let head ← (value.member? "head").mapM Json.text?
  let error ← (value.member? "error").mapM Json.text?
  let guidance ← (value.member? "guidance").mapM Guidance.ofJson?
  return { checkout, revision, syncPolicy, stage, stages, head, error, guidance }

/-- The report that a text holds. -/
def Report.ofBytes? (text : Bytes) : Option Report := (Json.ofBytes? text).bind Report.ofJson?

/-- The guidance as JSON, with its paths as they are shown. -/
def Guidance.shown (g : Guidance) : Json :=
  .obj ([("config_file", .str g.configFile.text), ("key", .str g.key),
    ("applied", Json.ofOption (fun p => .str p.text) g.applied)]
    ++ Json.optional "suggested" (fun p => .str p.text) g.suggested)

/-- The report as JSON, with its paths as they are shown. -/
def Report.shown (r : Report) : Json :=
  .obj ([("checkout", .str r.checkout.text), ("revision", Json.ofOption .str r.revision),
    ("sync_policy", .str r.syncPolicy.text), ("stage", r.stage.json),
    ("stages", .arr (r.stages.map StageRecord.json))] ++ Json.optional "head" .str r.head
    ++ Json.optional "error" .str r.error ++ Json.optional "guidance" Guidance.shown r.guidance)

def Guidance.isUnicode (g : Guidance) : Bool :=
  g.configFile.isUnicode && g.applied.all Path.isUnicode && g.suggested.all Path.isUnicode

/-- Every path of the report is Unicode. -/
def Report.isUnicode (r : Report) : Bool := r.checkout.isUnicode && r.guidance.all Guidance.isUnicode

/-! ## Written reports -/

section

variable {α : Type} {value : α → Json} {given : Option α}

theorem mapM_write {write : α → Except Json.Error Json} {test : α → Bool} {e : Json.Error}
    (hwrite : ∀ a, write a = if test a then .ok (value a) else .error e) :
    given.mapM write = if given.all test then .ok (given.map value) else .error e := by
  cases given with
  | none => rfl
  | some a => cases ha : test a <;> simp [hwrite, ha]

theorem optional_map (name : String) : Json.optional name id (given.map value) = Json.optional name value given := by
  cases given <;> rfl

theorem getD_map_null : (given.map value).getD .null = Json.ofOption value given := by
  cases given <;> rfl

end

theorem Path.mapM_json (given : Option Path) :
    given.mapM Path.json = if given.all Path.isUnicode then .ok (given.map fun p => .str p.text)
      else .error ⟨.pathNotUnicode, none⟩ :=
  mapM_write fun _ => rfl

theorem Guidance.json_eq (g : Guidance) :
    g.json = if g.isUnicode then .ok g.shown else .error ⟨.pathNotUnicode, none⟩ := by
  rw [json, Path.json, Path.mapM_json, Path.mapM_json, isUnicode, shown, ← optional_map, ← getD_map_null]
  cases g.configFile.isUnicode with
  | false => rfl
  | true =>
    cases g.applied.all Path.isUnicode with
    | false => rfl
    | true => cases g.suggested.all Path.isUnicode <;> rfl

/-- A report is written with its paths as they are shown, and only if that loses nothing. -/
theorem Report.json_eq (r : Report) :
    r.json = if r.isUnicode then .ok r.shown else .error ⟨.pathNotUnicode, none⟩ := by
  rw [json, Path.json, mapM_write Guidance.json_eq, isUnicode, shown, ← optional_map "guidance"]
  cases r.checkout.isUnicode with
  | false => rfl
  | true => cases r.guidance.all Guidance.isUnicode <;> rfl

/-! ## Reports read back -/

section

variable {α : Type} {value : α → Json} {given : Option α}

theorem lookup_optional (name : String) : (Json.optional name value given).lookup name = given.map value := by
  cases given <;> simp [Json.optional]

theorem lookup_optional_of_ne {name other : String} (h : (other == name) = false) :
    (Json.optional name value given).lookup other = none := by
  cases given <;> simp [Json.optional, List.lookup_cons, h]

theorem all_optional (name : String) (levels : Nat) :
    (Json.optional name value given).all (fun m => isWordy levels m.2) = given.all fun a => isWordy levels (value a) := by
  cases given <;> simp [Json.optional]

theorem isWordy_ofOption {levels : Nat} (h : ∀ a, isWordy levels (value a) = true) :
    isWordy levels (Json.ofOption value given) = true := by
  cases given with
  | none => cases levels <;> rfl
  | some a => exact h a

theorem nullable?_ofOption {holds? : Json → Option α} (h : ∀ a ∈ given, holds? (value a) = some a)
    (hnull : ∀ a, value a ≠ .null) : (Json.ofOption value given).nullable? holds? = some given := by
  cases given with
  | none => rfl
  | some a =>
    rw [Json.ofOption, nullable?, h a rfl]
    · rfl
    · exact hnull a

theorem mapM_map_value {holds? : Json → Option α} (h : ∀ a ∈ given, holds? (value a) = some a) :
    (given.map value).mapM holds? = some given := by
  cases given with
  | none => rfl
  | some a => simp [h a rfl]

end

theorem Path.ofText_text {p : Path} (h : p.isUnicode = true) : ofText p.text = p := by
  cases p with
  | mk spelling => exact congrArg Path.mk (Raw.ofText_text h)

theorem Stage.ofJson?_json (stage : Stage) : ofJson? stage.json = some stage := by
  cases stage with
  | failed kind =>
    have hread : ofJson? (failed kind).json = (FailureKind.ofText? kind.text).bind fun kind => some (failed kind) := rfl
    rw [hread, kind.ofText?_text]
    rfl
  | _ => decide

theorem Stage.isWordy_json (stage : Stage) (levels : Nat) : isWordy (levels + 1) stage.json = true := by
  cases stage <;> simp [json, isWordy]

theorem Outcome.ofText?_text (outcome : Outcome) : ofText? outcome.text = some outcome := by
  cases outcome <;> decide

theorem StageRecord.ofJson?_json (s : StageRecord) : ofJson? s.json = some s := by
  have hnote : (s.note.map Json.str).mapM text? = some s.note := mapM_map_value fun _ _ => rfl
  simp [ofJson?, json, member?, text?, List.lookup_cons, lookup_optional, hnote, s.stage.ofJson?_json,
    s.outcome.ofText?_text]

theorem StageRecord.isWordy_json (s : StageRecord) (levels : Nat) : isWordy (levels + 2) s.json = true := by
  simp [json, isWordy, all_optional, s.stage.isWordy_json]

theorem Guidance.ofJson?_shown {g : Guidance} (h : g.isUnicode = true) : ofJson? g.shown = some g := by
  rw [isUnicode, Bool.and_eq_true, Bool.and_eq_true] at h
  obtain ⟨⟨hfile, happlied⟩, hsuggested⟩ := h
  have hread : ∀ {given : Option Path}, given.all Path.isUnicode = true →
      ∀ p ∈ given, Path.ofJson? (.str p.text) = some p :=
    fun hgiven p hp => congrArg some (Path.ofText_text ((Option.all_eq_true _ _).mp hgiven p hp))
  have happlied := nullable?_ofOption (hread happlied) fun _ => nofun
  have hsuggested := mapM_map_value (hread hsuggested)
  simp [ofJson?, shown, member?, text?, List.lookup_cons, lookup_optional, Path.ofJson?, Path.ofText_text hfile, happlied,
    hsuggested]

theorem Guidance.isWordy_shown (g : Guidance) (levels : Nat) : isWordy (levels + 1) g.shown = true := by
  simp [shown, isWordy, all_optional, isWordy_ofOption]

theorem Report.isWordy_shown (r : Report) (levels : Nat) : isWordy (levels + 4) r.shown = true := by
  have hrevision : isWordy (levels + 3) (Json.ofOption .str r.revision) = true := isWordy_ofOption fun _ => rfl
  simp [shown, isWordy, all_optional, hrevision, Stage.isWordy_json, StageRecord.isWordy_json,
    Guidance.isWordy_shown]

theorem Report.ofJson?_shown {r : Report} (h : r.isUnicode = true) : ofJson? r.shown = some r := by
  rw [isUnicode, Bool.and_eq_true] at h
  obtain ⟨hcheckout, hguidance⟩ := h
  have hrevision : (Json.ofOption .str r.revision).nullable? text? = some r.revision :=
    nullable?_ofOption (fun _ _ => rfl) fun _ => nofun
  have hstages : (r.stages.map StageRecord.json).mapM StageRecord.ofJson? = some r.stages := by
    have hread : StageRecord.ofJson? ∘ StageRecord.json = fun s => pure (id s) := funext StageRecord.ofJson?_json
    rw [List.mapM_map, hread, List.mapM_pure, List.map_id]
    rfl
  have htext : ∀ given : Option String, (given.map Json.str).mapM text? = some given :=
    fun _ => mapM_map_value fun _ _ => rfl
  have hguidance : (r.guidance.map Guidance.shown).mapM Guidance.ofJson? = some r.guidance :=
    mapM_map_value fun g hg => Guidance.ofJson?_shown ((Option.all_eq_true _ _).mp hguidance g hg)
  simp [ofJson?, shown, member?, text?, items?, List.lookup_cons, List.lookup_append, lookup_optional,
    lookup_optional_of_ne, Path.ofJson?, Path.ofText_text hcheckout, hrevision, r.syncPolicy.ofText?_text,
    r.stage.ofJson?_json, hstages, htext, hguidance]

/-- A printed report is read back as it was. -/
theorem Report.ofBytes?_pretty {r : Report} {value : Json} (h : r.json = .ok value) :
    ofBytes? (encode (value.pretty ++ "\n")) = some r := by
  rw [json_eq] at h
  split at h
  · next hunicode =>
    obtain rfl : r.shown = value := Except.ok.inj h
    -- A report has four levels: itself, its stages, each of them, and the kind of a failure.
    rw [ofBytes?, Json.ofBytes?_pretty (r.isWordy_shown 123)]
    exact ofJson?_shown hunicode
  · cases h

end Bringup

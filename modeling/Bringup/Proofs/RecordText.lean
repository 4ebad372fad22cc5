import Bringup.Progress.Reader
import Bringup.Proofs.JsonText

/-!
# The text of a record

* `reads_stage`: a written stage is read back, with the kind of a failure.
* `reading_text`: a written record is read back, unless its time cannot be.
* `readAll_torn_text`: no proper beginning of a written record is read.
-/

namespace Bringup

set_option autoImplicit false

open Bringup.Text Utf8 Json

/-! ## Stages -/

theorem Json.Reads.map {α β : Type} {levels : Nat} {R : Read α} {text : Bytes} {a : α}
    (h : Reads levels R text a) (f : α → β) : Reads levels (do return f (← R)) text (f a) := by
  refine ⟨h.starts, fun ws rest d hws hd => ?_⟩
  rw [reading_bind_of_ok (h.reads ws rest d hws hd)]
  rfl

theorem reads_kind (kind : FailureKind) : Reads 0 Stage.readKind (spelling (quoted kind.text)) kind := by
  cases kind <;> exact reads_alone rfl rfl

theorem plainOfText?_failed : Stage.plainOfText? "failed" = none := by decide

theorem reads_plain {stage : Stage} (hname : Stage.names.contains stage.text = true)
    (hstage : Stage.plainOfText? stage.text = some stage) :
    Reads 1 Stage.read (spelling (quoted stage.text)) stage := by
  refine (reads_alone hname ?_).mono (Nat.zero_le 1)
  simp only [hstage]

theorem reads_stage (stage : Stage) (level : Nat) :
    Reads 1 Stage.read (spelling (render level stage.json)) stage := by
  cases stage with
  | failed kind =>
    refine reads_carrying (by decide) ?_
    rw [plainOfText?_failed, render]
    exact (reads_kind kind).map Stage.failed
  | _ => exact reads_plain (by decide) (by decide)

theorem steady_readKind : Steady Stage.readKind := by
  have ofName : ∀ name, Steady (Stage.readKind.ofName name) := by
    intro name
    rw [Stage.readKind.ofName]
    split
    · exact steady_pure _
    · exact (fails_failUnplaced _).continues
  exact steady_variant _ ofName fun name =>
    (ofName name).bind fun _ => steady_unit.bind fun _ => steady_pure _

theorem steady_readStage : Steady Stage.read := by
  refine steady_variant _ (fun name => ?_) fun name => ?_
  · split
    · exact steady_pure _
    · exact (fails_failUnplaced _).continues
  · split
    · exact steady_unit.bind fun _ => steady_pure _
    · exact steady_readKind.bind fun _ => steady_pure _

namespace Progress

/-! ## Records with more text -/

theorem steady_readStages : Steady readStages := (closes_list steady_readStage).steady

theorem steady_readMember (fields : Fields) (name : String) : Steady (readMember fields name) := by
  refine Continues.ite ?_ (Continues.ite ?_ (Continues.ite ?_ ?_))
  · exact (steady_field _ (steady_stringAs _ _) _).bind fun _ => steady_pure _
  · exact (steady_field _ steady_readStages _).bind fun _ => steady_pure _
  · exact (steady_field _ (steady_stringAs _ _) _).bind fun _ => steady_pure _
  · exact steady_colon.bind fun _ => steady_skipAny.bind fun _ => steady_pure _

theorem steady_readObject : Steady readObject := by
  refine Continues.bind (R := do Json.members readMember ((← get).rest.length + 1) true {}) ?_
    fun fields => ?_
  · exact steady_fuelled (fun _ _ h => continues_members steady_readMember h true _)
      fun _ _ h => Nat.succ_le_succ h
  · exact (steady_required _ _).bind fun _ => (steady_required _ _).bind fun _ =>
      (steady_required _ _).bind fun _ => steady_pure _

theorem steady_readItem {α : Type} (index : Nat) {item : Read α} (hitem : Steady item) :
    Steady (readItem index item) := by
  refine (steady_item? hitem _).bind fun given => ?_
  cases given with
  | none => exact (fails_failUnplaced _).continues
  | some a => exact steady_pure a

theorem closes_read : Closes read := by
  refine closes_record _ steady_readObject ?_
  exact (steady_readItem 0 (steady_stringAs _ _)).bind fun _ =>
    (steady_readItem 1 steady_readStages).bind fun _ =>
      (steady_readItem 2 (steady_stringAs _ _)).bind fun _ => steady_pure _

/-! ## Written records -/

/-- A member of a written record, after its name. -/
def memberText (text : List Char) (rest : Bytes) : Bytes :=
  byte ':' :: byte ' ' :: (spelling text ++ rest)

/-- The bytes after the opening bracket of a written record, with more behind them. -/
def innerText (p : Progress) (rest : Bytes) : Bytes :=
  spelling (newline 1) ++ (spelling (quoted "target") ++ memberText (quoted p.target)
    (byte ',' :: (spelling (newline 1) ++ (spelling (quoted "completed")
      ++ memberText (render 1 (.arr (p.completed.map Stage.json)))
    (byte ',' :: (spelling (newline 1) ++ (spelling (quoted "updated_at")
      ++ memberText (quoted p.updatedAt.text)
    (spelling (newline 0) ++ byte '\x7d' :: rest))))))))

theorem encode_text (p : Progress) (rest : Bytes) :
    encode p.text ++ rest = byte '\x7b' :: innerText p rest := by
  have hspelling : encode p.text = byte '\x7b' :: innerText p [] := by
    rw [text, pretty, encode_ofList, json, render, renderMembers, renderMembers, renderMembers]
    simp only [spelling_cons, spelling_append, List.append_assoc, innerText, memberText, render]
    rfl
  rw [hspelling]
  simp [innerText, memberText]

section

variable (p : Progress) (rest : Bytes) {d : Nat}

theorem readMember_target (hd : 0 < d) :
    reading (readMember {} "target") ⟨memberText (quoted p.target) rest, d⟩
      = (.ok { target := some p.target }, ⟨rest, d⟩) := by
  have htarget : Reads 0 Json.string (spelling (quoted p.target)) p.target := reads_string rfl
  rw [readMember, if_pos BEq.rfl, memberText, reading_bind_of_ok (reading_field "target" htarget hd rest)]
  rfl

theorem readMember_completed (hd : 2 < d) :
    reading (readMember { target := some p.target } "completed")
        ⟨memberText (render 1 (.arr (p.completed.map Stage.json))) rest, d⟩
      = (.ok { target := some p.target, completed := some p.completed }, ⟨rest, d⟩) := by
  have hstages : Reads 2 readStages (spelling (render 1 (.arr (p.completed.map Stage.json)))) p.completed :=
    reads_list fun stage _ => reads_stage stage 2
  rw [readMember, if_neg (by decide), if_pos BEq.rfl, memberText,
    reading_bind_of_ok (reading_field "completed" hstages hd rest)]
  rfl

theorem readMember_updatedAt (fields : Fields) (hnone : fields.updatedAt = none) :
    reading (readMember fields "updated_at") ⟨memberText (quoted p.updatedAt.text) rest, d⟩ =
      match Instant.ofText p.updatedAt.text with
      | .ok t => (.ok { fields with updatedAt := some t }, ⟨rest, d⟩)
      | .error fault => (.error ⟨.mismatch (.other fault.message), some rest.length⟩, ⟨rest, d⟩) := by
  have htime := reading_stringAs "an RFC 3339 formatted date and time string"
    (fun s => (Instant.ofText s).mapError fun fault => Mismatch.other fault.message) p.updatedAt.text
    blank_space rest d
  rw [List.singleton_append] at htime
  rw [readMember, if_neg (by decide), if_neg (by decide), if_pos BEq.rfl, hnone, memberText, reading_bind,
    field, reading_bind_of_ok (reading_colon _), reading_bind, readInstant, htime]
  cases Instant.ofText p.updatedAt.text <;> rfl

/-- What follows the opening bracket of a written record is read as the record, if its time can be read. -/
theorem reading_innerText (hd : 2 < d) :
    reading readObject ⟨innerText p rest, d⟩ =
      match Instant.ofText p.updatedAt.text with
      | .ok t => (.ok { p with updatedAt := t }, ⟨byte '\x7d' :: rest, d⟩)
      | .error fault => (.error ⟨.mismatch (.other fault.message),
          some (spelling (newline 0) ++ byte '\x7d' :: rest).length⟩,
          ⟨spelling (newline 0) ++ byte '\x7d' :: rest, d⟩) := by
  -- Three members and the bracket take four steps.
  have hfuel : ∃ n, (innerText p rest).length + 1 = n + 4 := by
    refine ⟨(innerText p rest).length - 3, ?_⟩
    have : 3 ≤ (innerText p rest).length := by
      simp only [innerText, memberText, List.length_append, List.length_cons]
      omega
    omega
  obtain ⟨n, hn⟩ := hfuel
  rw [readObject, reading_bind_of_ok (reading_get _)]
  dsimp only
  rw [hn, innerText, reading_bind, reading_members_first (blank_newline 1),
    reading_bind_of_ok (readMember_target p _ (by omega)), reading_members_next (blank_newline 1),
    reading_bind_of_ok (readMember_completed p _ hd), reading_members_next (blank_newline 1), reading_bind,
    readMember_updatedAt p _ _ rfl]
  cases Instant.ofText p.updatedAt.text with
  | ok t =>
    dsimp only
    rw [reading_members_end (blank_newline 0)]
    rfl
  | error fault => rfl

end

theorem reading_text (p : Progress) :
    reading read ⟨encode p.text, nestingLimit⟩ =
      match Instant.ofText p.updatedAt.text with
      | .ok t => (.ok { p with updatedAt := t }, ⟨[], nestingLimit⟩)
      | .error fault => (.error ⟨.mismatch (.other fault.message), some 2⟩, ⟨[], nestingLimit - 1⟩) := by
  have htext := encode_text p []
  have hinner : reading (do skip; readObject) ⟨byte '\x7b' :: innerText p [], nestingLimit - 1⟩
      = reading readObject ⟨innerText p [], nestingLimit - 1⟩ := rfl
  have hfirst : reading firstByte ⟨byte '\x7b' :: innerText p [], nestingLimit⟩
      = (.ok (byte '\x7b'), ⟨byte '\x7b' :: innerText p [], nestingLimit⟩) := rfl
  rw [List.append_nil] at htext
  rw [htext, read, record, reading_bind_of_ok hfirst, if_neg (by decide), if_pos BEq.rfl]
  rw [reading_innerText p [] (by decide)] at hinner
  cases ht : Instant.ofText p.updatedAt.text with
  | ok t =>
    rw [ht] at hinner
    exact reading_bracketed (by decide) hinner (reading_endObject blank_nil [])
  | error fault =>
    rw [ht] at hinner
    rw [placed, reading_tryCatch, reading_closedBy, reading_nested, if_neg (by decide), hinner]
    rfl

/-- A written record is read back, if its time is. -/
theorem ofText_text (p : Progress) :
    (ofText p.text).toOption =
      (Instant.ofText p.updatedAt.text).toOption.map fun t => { p with updatedAt := t } := by
  have h := reading_text p
  rw [ofText]
  cases ht : Instant.ofText p.updatedAt.text with
  | ok t =>
    rw [ht] at h
    rw [readAll_of_ok h rfl]
    rfl
  | error fault =>
    rw [ht] at h
    rw [readAll_of_error h]
    rfl

/-- No proper beginning of a written record is read. -/
theorem readAll_torn_text {p : Progress} {part : Bytes} (hpart : part <+: encode p.text)
    (hne : part ≠ encode p.text) (q : Progress) : readAll read part ≠ .ok q := by
  obtain ⟨rest, hrest⟩ := hpart
  refine @readAll_torn _ _ closes_read part rest (fun a s hread => ?_) ?_ q
  · rw [hrest, reading_text] at hread
    split at hread
    · cases hread
      rfl
    · cases hread
  · rintro rfl
    exact hne (by rw [← hrest, List.append_nil])

end Progress

end Bringup

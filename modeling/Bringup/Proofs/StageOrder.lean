import Mathlib.Data.List.Nodup
import Bringup.Proofs.Course

/-!
# The order of stages and calls

Which stages a run reaches, which operations it asks its collaborators for, and how the two belong together.

* `Account`: what the report and the exchanges say between two stages. The calls so far are those that the
  stages of the report stand for.
* `Halted`: what they say where a run fails.
* `run_reaches_stages_in_order`, `run_calls_in_order`: what follows for every run.
-/

namespace Bringup

set_option autoImplicit false

open Dialogue Procedure

/-! ## Calls -/

/-- An operation of source control or a setup step. -/
def Question.isCall : Question → Bool
  | ensureAvailable => true
  | clone _ _ => true
  | checkout _ _ => true
  | pull _ => true
  | isWorkTree _ => true
  | headRevision _ => true
  | resolveRevision _ _ => true
  | setupEnvironment => true
  | setupPackages => true
  | _ => false

/-- The exchanges with source control and the setup steps. -/
def calls (es : List Exchange) : List Exchange := es.filter fun e => e.question.isCall

/-- A call that did not succeed, or a checkout that is no work tree. -/
def Exchange.isFailed : Exchange → Bool
  | ⟨.ensureAvailable, some (.error _)⟩ => true
  | ⟨.clone _ _, some (.error _)⟩ => true
  | ⟨.checkout _ _, some (.error _)⟩ => true
  | ⟨.pull _, some (.error _)⟩ => true
  | ⟨.isWorkTree _, some false⟩ => true
  | ⟨.setupEnvironment, some (.error _)⟩ => true
  | ⟨.setupPackages, some (.error _)⟩ => true
  | _ => false

/-- The calls that a stage may make, in order. -/
def Stage.questions (plan : Plan) : Stage → List Question
  | cloned => [.isWorkTree plan.checkout, .clone plan.repository plan.checkout]
  | pinned => plan.revision.toList.map (.checkout plan.checkout)
  | synced => [.pull plan.checkout]
  | envReady => [.setupEnvironment]
  | pkgsReady => [.setupPackages]
  | done => [.headRevision plan.checkout]
  | _ => []

/-- The call that carries a stage out. -/
def Stage.call? (plan : Plan) : Stage → Option Exchange
  | cloned => some ⟨.clone plan.repository plan.checkout, some (.ok ())⟩
  | pinned => (pinnedRevision plan).map fun revision => ⟨.checkout plan.checkout revision, some (.ok ())⟩
  | synced => some ⟨.pull plan.checkout, some (.ok ())⟩
  | envReady => some ⟨.setupEnvironment, some (.ok ())⟩
  | pkgsReady => some ⟨.setupPackages, some (.ok ())⟩
  | _ => none

/-- The calls that a stage made, by its record. -/
def StageRecord.calls (plan : Plan) : StageRecord → List Exchange
  | ⟨stage, .ran, _⟩ => (stage.call? plan).toList
  | ⟨.cloned, .skipped, _⟩ => [⟨.isWorkTree plan.checkout, some true⟩]
  | ⟨_, .skipped, _⟩ => []

/-- A stage runs only if the plan asks for it. -/
def StageRecord.Allowed (plan : Plan) (record : StageRecord) : Prop :=
  record.outcome = .ran → (record.stage = .pinned → (pinnedRevision plan).isSome) ∧
    (record.stage = .synced → plan.syncPolicy ≠ .pinned)

/-- The calls of a run up to the last stage of its report. -/
def Report.calls (plan : Plan) (r : Report) : List Exchange :=
  ⟨.ensureAvailable, some (.ok ())⟩ :: r.stages.flatMap (StageRecord.calls plan)

/-- The number of stages that a report has where a failure of a kind ends the run. -/
def FailureKind.reached? : FailureKind → Option Nat
  | acquisition => some 0
  | revision => some 1
  | sync => some 2
  | environmentSetup => some 3
  | packageInstall => some 4
  | configure => some 5
  | config => none
  | io => none

/-! ## Between two stages -/

/-- The report holds the first `n` stages, and the calls so far are theirs. -/
structure Account (plan : Plan) (n : Nat) (r : Report) (l : List Exchange) : Prop where
  stages : r.stages.map StageRecord.stage = Stage.sequence.take n
  head : r.head = none
  error : r.error = none
  allowed : ∀ record ∈ r.stages, record.Allowed plan
  calls : calls l = r.calls plan

/-- The last exchange is a failed attempt to store the last stage of the report. -/
def FailedSave (plan : Plan) (f : Failure) (r : Report) (l : List Exchange) : Prop :=
  ∃ (progress : Progress) (stage : Stage) (now : Instant) (e : IoError),
    (r.stages.map StageRecord.stage).getLast? = some stage ∧
    l.getLast? = some ⟨.store plan.checkout (progress.mark stage now), some (.error e)⟩ ∧ f = .io e

/-- After the calls of the stages in the report there is at most one more, which belongs to the next stage. -/
structure Trail (plan : Plan) (r : Report) (cs rest : List Exchange) : Prop where
  stages : r.stages.map StageRecord.stage = Stage.sequence.take r.stages.length
  allowed : ∀ record ∈ r.stages, record.Allowed plan
  calls : cs = r.calls plan ++ rest
  single : rest.length ≤ 1
  next : ∀ e ∈ rest, ∃ stage, (Stage.sequence ++ [.done])[r.stages.length]? = some stage ∧
    e.question ∈ stage.questions plan ∧ StageRecord.Allowed plan ⟨stage, .ran, none⟩

/-- The report and the calls of a run where it fails. -/
structure Halted (plan : Plan) (f : Failure) (r : Report) (l : List Exchange) : Prop where
  stages : r.stages.map StageRecord.stage = Stage.sequence.take r.stages.length
  count : r.stages.length ≤ 6
  head : r.head = none
  error : r.error = none
  /-- Only the last call can have failed. -/
  calls : (∃ rest, Trail plan r (calls l) rest ∧ ∀ e ∈ rest, e.isFailed = true) ∨
    (r.stages = [] ∧ ∃ e, calls l = [⟨.ensureAvailable, some (.error e)⟩])
  cause : f.kind.reached? = some r.stages.length ∨
    f.kind = .io ∧ 1 ≤ r.stages.length ∧ FailedSave plan f r l

theorem calls_append (l l' : List Exchange) : calls (l ++ l') = calls l ++ calls l' :=
  List.filter_append ..

variable {plan : Plan} {n : Nat} {r : Report} {l : List Exchange}

theorem StageRecord.Allowed.of_ne {stage : Stage} {outcome : Outcome} {note : Option String}
    (hpinned : stage ≠ .pinned) (hsynced : stage ≠ .synced) :
    StageRecord.Allowed plan ⟨stage, outcome, note⟩ :=
  fun _ => ⟨fun h => absurd h hpinned, fun h => absurd h hsynced⟩

theorem StageRecord.Allowed.of_skipped {stage : Stage} {note : Option String} :
    StageRecord.Allowed plan ⟨stage, .skipped, note⟩ := by
  intro h
  cases h

theorem lt_six_of_stage {stage : Stage} (hn : Stage.sequence[n]? = some stage) : n < 6 :=
  (List.getElem?_eq_some_iff.mp hn).1

theorem Account.length (h : Account plan n r l) (hn : n ≤ 6) : r.stages.length = n := by
  have := congrArg List.length h.stages
  simp [Stage.sequence] at this
  omega

theorem Account.append (h : Account plan n r l) {es : List Exchange} (hes : Bringup.calls es = []) :
    Account plan n r (l ++ es) :=
  { h with calls := by rw [calls_append, h.calls, hes, List.append_nil] }

theorem Account.record (h : Account plan n r l) {stage : Stage} {outcome : Outcome}
    {note : Option String} {es : List Exchange} (hn : Stage.sequence[n]? = some stage)
    (hes : Bringup.calls es = StageRecord.calls plan ⟨stage, outcome, note⟩)
    (hallowed : StageRecord.Allowed plan ⟨stage, outcome, note⟩) :
    Account plan (n + 1) (r.record stage outcome note) (l ++ es) where
  stages := by
    rw [Report.record, List.map_append, h.stages, List.take_add_one, hn]
    rfl
  head := h.head
  error := h.error
  allowed := by
    intro record hrecord
    rcases List.mem_append.mp hrecord with hrecord | hrecord
    · exact h.allowed record hrecord
    · rw [List.mem_singleton.mp hrecord]
      exact hallowed
  calls := by
    rw [calls_append, h.calls, hes, Report.calls, Report.calls, Report.record, List.flatMap_append]
    simp

/-- A run that fails between two stages, perhaps by a call that the next stage makes. -/
theorem Account.halt (h : Account plan n r l) (hn : n ≤ 6) {f : Failure} {es : List Exchange}
    (hsingle : (Bringup.calls es).length ≤ 1)
    (hnext : ∀ e ∈ Bringup.calls es, e.isFailed = true ∧ ∃ stage, Stage.sequence[n]? = some stage ∧
      e.question ∈ stage.questions plan ∧ StageRecord.Allowed plan ⟨stage, .ran, none⟩)
    (hcause : f.kind.reached? = some n ∨ f.kind = .io ∧ 1 ≤ n ∧ FailedSave plan f r (l ++ es)) :
    Halted plan f r (l ++ es) := by
  have hlen := h.length hn
  have hstages : r.stages.map StageRecord.stage = Stage.sequence.take r.stages.length := by
    rw [hlen]
    exact h.stages
  refine ⟨hstages, hlen ▸ hn, h.head, h.error, .inl ⟨Bringup.calls es, ?_, fun e he => (hnext e he).1⟩, ?_⟩
  · refine ⟨hstages, h.allowed, by rw [calls_append, h.calls], hsingle, fun e he => ?_⟩
    obtain ⟨_, stage, hstage, hq⟩ := hnext e he
    refine ⟨stage, ?_, hq⟩
    rw [hlen, List.getElem?_append_left (lt_six_of_stage hstage)]
    exact hstage
  · rw [hlen]
    exact hcause

theorem Account.halt_quietly (h : Account plan n r l) (hn : n ≤ 6) {f : Failure} {es : List Exchange}
    (hes : Bringup.calls es = [])
    (hcause : f.kind.reached? = some n ∨ f.kind = .io ∧ 1 ≤ n ∧ FailedSave plan f r (l ++ es)) :
    Halted plan f r (l ++ es) :=
  h.halt hn (by simp [hes]) (by simp [hes]) hcause

theorem Account.halt_call (h : Account plan n r l) {f : Failure} {e : Exchange} {stage : Stage}
    (hstage : Stage.sequence[n]? = some stage) (hcall : e.question.isCall = true)
    (hfailed : e.isFailed = true) (hq : e.question ∈ stage.questions plan)
    (hallowed : StageRecord.Allowed plan ⟨stage, .ran, none⟩) (hcause : f.kind.reached? = some n) :
    Halted plan f r (l ++ [e]) := by
  have hes : Bringup.calls [e] = [e] := by simp [Bringup.calls, hcall]
  have := lt_six_of_stage hstage
  refine h.halt (by omega) (by simp [hes]) (fun e' he' => ?_) (.inl hcause)
  rw [hes, List.mem_singleton] at he'
  subst he'
  exact ⟨hfailed, stage, hstage, hq, hallowed⟩

/-! ## The stages -/

section

open Surroundings (notes quiet_notes)

theorem keeps_notes {q : Question} {Q : q.Answer → List Exchange → Prop} :
    (ask q ends).Keeps notes (fun _ => True) Q l ↔
      ∀ a, Q a (l ++ [⟨q, some a⟩].filter Exchange.isHeard) := by
  simp [Keeps, notes]

theorem Account.reached (h : Account plan n r l) {stage : Stage} {outcome : Outcome}
    {note : Option String} {es : List Exchange} (hn : Stage.sequence[n]? = some stage)
    (hes : Bringup.calls es = StageRecord.calls plan ⟨stage, outcome, note⟩)
    (hallowed : StageRecord.Allowed plan ⟨stage, outcome, note⟩) :
    Reached notes (fun _ => True) stage outcome note (fun r l => Account plan (n + 1) r l) r (l ++ es) := by
  refine keeps_notes.mpr fun _ => ?_
  rw [List.append_assoc]
  refine h.record hn ?_ hallowed
  rw [calls_append, hes]
  exact List.append_nil _

theorem Account.passed (h : Account plan n r l) {stage : Stage} {outcome : Outcome}
    {note : Option String} (hn : Stage.sequence[n]? = some stage)
    (hnone : StageRecord.calls plan ⟨stage, outcome, note⟩ = [])
    (hallowed : StageRecord.Allowed plan ⟨stage, outcome, note⟩) :
    Reached notes (fun _ => True) stage outcome note (fun r l => Account plan (n + 1) r l) r l := by
  rw [← List.append_nil l]
  exact h.reached hn hnone.symm hallowed

theorem Account.completed (h : Account plan (n + 1) r l) {progress : Progress} {stage : Stage}
    (hn : Stage.sequence[n]? = some stage) :
    Completed notes (fun _ => True) (Halted plan) plan progress stage
      (fun _ r l => Account plan (n + 1) r l) r l := by
  have hlast : (r.stages.map StageRecord.stage).getLast? = some stage := by
    rw [h.stages, List.take_add_one, hn, Option.toList_some, List.getLast?_concat]
  have hlen := lt_six_of_stage hn
  refine ⟨trivial, fun t _ => keeps_notes.mpr fun result => ?_⟩
  cases result with
  | ok a => exact h.append rfl
  | error e =>
    refine h.halt_quietly (by omega) rfl (.inr ⟨rfl, by omega, progress, stage, t, e, hlast, ?_, rfl⟩)
    exact List.getLast?_concat

theorem Exchange.isHeard_of_isCall {e : Exchange} (he : e.question.isCall = true) : e.isHeard = true := by
  obtain ⟨q, a⟩ := e
  cases q <;> first | rfl | cases he

theorem Account.advances {ε : Type} (h : Account plan n r l) {progress : Progress} {stage : Stage}
    {op : Dialogue (Except ε Unit)} {q : Question} {made : Except ε Unit → Exchange} {wrap : ε → Failure}
    (hop : Asks op q made) (hn : Stage.sequence[n]? = some stage) (hcall : q.isCall = true)
    (hok : StageRecord.calls plan ⟨stage, .ran, none⟩ = [made (.ok ())])
    (hfailed : ∀ e, (made (.error e)).isFailed = true) (hquestion : q ∈ stage.questions plan)
    (hkind : ∀ e, (wrap e).kind.reached? = some n)
    (hallowed : StageRecord.Allowed plan ⟨stage, .ran, none⟩) :
    Advances notes (fun _ => True) (Halted plan) plan progress stage op wrap
      (fun _ r l => Account plan (n + 1) r l) r l := by
  have hcalls : ∀ result, (made result).question.isCall = true := fun result => by rw [hop.question, hcall]
  have hnoted : ∀ {result l'}, notes l (made result) l' → l' = l ++ [made result] := by
    intro result l' hl
    rw [hl, List.filter_cons_of_pos (Exchange.isHeard_of_isCall (hcalls result)), List.filter_nil]
  refine hop.advances (fun _ _ => trivial) (fun e l' hl => ?_) fun l' hl => ?_
  · rw [hnoted hl]
    exact h.halt_call hn (hcalls _) (hfailed e) (by rw [hop.question]; exact hquestion) hallowed (hkind e)
  · rw [hnoted hl]
    refine (h.reached hn ?_ hallowed).mono fun r l h => h.completed hn
    rw [hok]
    simp [Bringup.calls, hcalls]

variable (environment packages : String)

theorem Account.acquire (h : Account plan 0 r l) :
    Step.Holds notes (fun _ => True) (Halted plan) (acquire (.asked environment packages) plan)
      (fun p r l => Completed notes (fun _ => True) (Halted plan) plan p .cloned
        (fun _ r l => Account plan 1 r l) r l) r l := by
  have refusal : ∀ message {es : List Exchange}, Bringup.calls es = [] →
      Halted plan (refused message) r (l ++ es) := by
    intro message es hes
    exact h.halt_quietly (by omega) hes (.inl rfl)
  refine holds_acquire quiet_notes (keeps_notes.mpr fun there => ?_)
  have h₀ : Account plan 0 r (l ++ [⟨.present plan.checkout, some there⟩]) := h.append rfl
  cases there with
  | true =>
    rw [if_pos rfl, Resumes]
    by_cases hrerun : plan.rerunPolicy = .fail
    · rw [if_pos hrerun]
      exact fun message => refusal message rfl
    · rw [if_neg hrerun]
      refine keeps_notes.mpr fun isTree => ?_
      cases isTree with
      | false =>
        rw [if_neg (by decide)]
        intro message
        exact h₀.halt_call rfl rfl rfl (List.mem_cons_self ..) (.of_ne (by decide) (by decide)) rfl
      | true =>
        rw [if_pos rfl]
        refine ⟨trivial, (h₀.reached rfl rfl .of_skipped).mono fun r l h => ?_⟩
        refine keeps_notes.mpr fun loaded => ?_
        have h₁ : Account plan 1 r (l ++ [⟨.load plan.checkout, some loaded⟩]) := h.append rfl
        cases loaded with
        | none => exact ⟨trivial, fun t => h₁.completed rfl⟩
        | some progress =>
          rw [TakesUp]
          split
          · exact h₁.completed rfl
          · exact ⟨trivial, fun t => h₁.completed rfl⟩
  | false =>
    rw [if_neg (by decide)]
    refine ⟨trivial, keeps_notes.mpr fun result => ?_⟩
    cases result with
    | ok a =>
      rw [Tried]
      refine (h₀.reached rfl rfl ?_).mono fun r l h => ⟨trivial, fun t => h.completed rfl⟩
      exact .of_ne (by decide) (by decide)
    | error e =>
      refine h₀.halt_call rfl rfl rfl ?_ (.of_ne (by decide) (by decide)) rfl
      exact List.mem_cons_of_mem _ (List.mem_cons_self ..)

theorem Account.configure {p : Progress} (h : Account plan 5 r l) :
    Step.Holds notes (fun _ => True) (Halted plan) (configure (.asked environment packages) plan p)
      (fun _ r l => Account plan 6 r l) r l := by
  have guidance : ∀ {r l} applied suggested, Account plan 6 r l →
      Account plan 6 (guided plan applied suggested r) l :=
    fun _ _ h => ⟨h.stages, h.head, h.error, h.allowed, h.calls⟩
  have allowed : ∀ outcome note, StageRecord.Allowed plan ⟨.configured, outcome, note⟩ :=
    fun _ _ => .of_ne (by decide) (by decide)
  refine holds_configure quiet_notes (fun note _ => ?_) fun tool _ => keeps_notes.mpr fun result => ?_
  · exact (h.passed rfl rfl (allowed _ _)).mono fun r l h => guidance _ _ h
  · have h₀ : Account plan 5 r (l ++ [⟨.applySetting plan.disassemblerConfigPath plan.disassemblerKey tool,
        some result⟩]) := h.append rfl
    cases result with
    | ok changed =>
      rw [Applied]
      exact (h₀.passed rfl rfl (allowed _ _)).mono fun r l h => (guidance _ _ h).completed rfl
    | error failure =>
      rw [Applied]
      split
      · exact ⟨trivial, fun note => (h₀.passed rfl rfl (allowed _ _)).mono fun r l h => guidance _ _ h⟩
      · exact h.halt_quietly (by omega) rfl (.inl rfl)

theorem pinnedRevision_eq_some {revision : String} (h : pinnedRevision plan = some revision) :
    plan.syncPolicy ≠ .latest ∧ plan.revision = some revision := by
  rw [pinnedRevision] at h
  split at h
  · cases h
  · next hpolicy => exact ⟨hpolicy, h⟩

theorem Account.pin {p : Progress} (h : Account plan 1 r l) :
    Step.Holds notes (fun _ => True) (Halted plan) (pin (.asked environment packages) plan p)
      (fun _ r l => Account plan 2 r l) r l := by
  refine holds_pin quiet_notes trivial (fun note _ => h.passed rfl rfl .of_skipped) fun revision hrev _ => ?_
  have hplan := (pinnedRevision_eq_some hrev).2
  refine h.advances (asks_checkout _ revision) rfl rfl ?_ (fun _ => rfl) ?_ (fun _ => rfl) ?_
  · simp [StageRecord.calls, Stage.call?, hrev]
  · simp [Stage.questions, hplan]
  · exact fun _ => ⟨fun _ => by rw [hrev]; rfl, nofun⟩

theorem Account.sync {p : Progress} (h : Account plan 2 r l) :
    Step.Holds notes (fun _ => True) (Halted plan) (sync (.asked environment packages) plan p)
      (fun _ r l => Account plan 3 r l) r l := by
  refine holds_sync quiet_notes trivial (fun note _ => h.passed rfl rfl .of_skipped) fun hpolicy _ => ?_
  refine h.advances (asks_pull _) rfl rfl rfl (fun _ => rfl) (List.mem_singleton_self _) (fun _ => rfl) ?_
  exact fun _ => ⟨nofun, fun _ => hpolicy⟩

theorem Account.setupEnvironment {p : Progress} {title : String} (h : Account plan 3 r l) :
    Step.Holds notes (fun _ => True) (Halted plan)
      (provision (.asked environment packages) plan p ⟨environment, ask .setupEnvironment ends⟩ .envReady
        .environmentSetup title) (fun _ r l => Account plan 4 r l) r l := by
  refine holds_provision quiet_notes trivial (fun note _ => h.passed rfl rfl .of_skipped) fun _ => ?_
  exact h.advances asks_setupEnvironment rfl rfl rfl (fun _ => rfl) (List.mem_singleton_self _)
    (fun _ => rfl) (.of_ne (by decide) (by decide))

theorem Account.setupPackages {p : Progress} {title : String} (h : Account plan 4 r l) :
    Step.Holds notes (fun _ => True) (Halted plan)
      (provision (.asked environment packages) plan p ⟨packages, ask .setupPackages ends⟩ .pkgsReady
        .packageInstall title) (fun _ r l => Account plan 5 r l) r l := by
  refine holds_provision quiet_notes trivial (fun note _ => h.passed rfl rfl .of_skipped) fun _ => ?_
  exact h.advances asks_setupPackages rfl rfl rfl (fun _ => rfl) (List.mem_singleton_self _)
    (fun _ => rfl) (.of_ne (by decide) (by decide))

theorem keeps_account :
    Step.Holds notes (fun _ => True) (Halted plan) (stages (.asked environment packages) plan)
      (fun _ r l => Account plan 6 r l) (.ofPlan plan) [] := by
  refine holds_stages quiet_notes (keeps_notes.mpr fun result => ?_)
    (fun p r l h => Account.pin environment packages h)
    (fun p r l h => Account.sync environment packages h)
    (fun p r l title h => Account.setupEnvironment environment packages h)
    (fun p r l title h => Account.setupPackages environment packages h)
    (fun p r l h => Account.configure environment packages h)
  cases result with
  | ok a =>
    refine Account.acquire environment packages ⟨rfl, rfl, rfl, ?_, rfl⟩
    intro record hrecord
    cases hrecord
  | error e =>
    exact ⟨rfl, Nat.zero_le _, rfl, rfl, .inr ⟨rfl, e, rfl⟩, .inl rfl⟩

/-- The result, the report and the exchanges of a run at its end. -/
def Closed (plan : Plan) : Except Failure Unit × Report → List Exchange → Prop
  | (.ok _, report), l => ∃ r head l₀, Account plan 6 r l₀ ∧
      report = { r with head }.record .done .ran none ∧
      calls l = r.calls plan ++ [⟨.headRevision plan.checkout, some head⟩]
  | (.error f, report), l => ∃ r, Halted plan f r l ∧ report = r.fail f

theorem keeps_closed :
    (run (.asked environment packages) plan (.ofPlan plan)).Keeps notes (fun _ => True) (Closed plan) [] := by
  refine keeps_run (Keeps.mono (keeps_account environment packages) fun out l hl => ?_)
  obtain ⟨result, r⟩ := out
  cases result with
  | ok a =>
    refine keeps_notes.mpr fun head => keeps_notes.mpr fun _ => ⟨r, head, l, hl, rfl, ?_⟩
    rw [calls_append, calls_append, hl.calls]
    exact List.append_nil _
  | error f => exact ⟨r, hl, rfl⟩

end

/-! ## The stages of a run -/

/-- What a run leaves in its report. -/
structure ReachesInOrder (plan : Plan) (result : Except Failure Unit) (report : Report)
    (es : List Exchange) : Prop where
  stages : report.stages.map StageRecord.stage <+: Stage.sequence ++ [.done]
  once : (report.stages.map StageRecord.stage).Nodup
  ok_iff : result = .ok () ↔ report.stages.map StageRecord.stage = Stage.sequence ++ [.done] ∧
    report.stage = .done ∧ report.error = none
  error : ∀ f, result = .error f →
    report.stage = .failed f.kind ∧ report.error = some f.message ∧ report.head = none
  /-- The kind of a failure tells how many stages were reached. -/
  kind : ∀ f, result = .error f →
    f.kind ≠ .config ∧ (f.kind ≠ .io → f.kind.reached? = some report.stages.length)
  /-- The progress could not be stored after the last stage that was reached. -/
  io : ∀ f, result = .error f → f.kind = .io →
    1 ≤ report.stages.length ∧ report.stages.length ≤ 6 ∧ FailedSave plan f report es

theorem Halted.reachesInOrder {f : Failure} (h : Halted plan f r l) :
    ReachesInOrder plan (.error f) (r.fail f) l := by
  have hinitial : r.stages.map StageRecord.stage <+: Stage.sequence ++ [.done] := by
    rw [h.stages]
    exact (List.take_prefix _ _).trans (List.prefix_append _ _)
  have hcount := h.count
  refine ⟨hinitial, hinitial.sublist.nodup (by decide), ?_, ?_, ?_, ?_⟩
  · refine ⟨nofun, fun hall => ?_⟩
    have hlen := congrArg List.length hall.1
    simp [Report.fail, Stage.sequence] at hlen
    omega
  · rintro _ ⟨⟩
    exact ⟨rfl, rfl, h.head⟩
  · rintro _ ⟨⟩
    rcases h.cause with hkind | ⟨hio, _⟩
    · refine ⟨?_, fun _ => hkind⟩
      intro hconfig
      rw [hconfig] at hkind
      cases hkind
    · exact ⟨by rw [hio]; decide, fun hne => absurd hio hne⟩
  · rintro _ ⟨⟩ hio
    rcases h.cause with hkind | ⟨_, hpos, hsave⟩
    · rw [hio] at hkind
      cases hkind
    · exact ⟨hpos, hcount, hsave⟩

/-- Every run reaches its stages in one order, and its report tells how it ended. -/
theorem run_reaches_stages_in_order {σ : Type} (c : Collaborators (StateM σ)) (plan : Plan) (s : σ) :
    ∃ result report es s', (run c plan (.ofPlan plan)).run s = ((result, report), s') ∧
      ((run c.logged plan (.ofPlan plan)).run []).run s = (((result, report), es), s') ∧
      ReachesInOrder plan result report es := by
  obtain ⟨result, report, es, s', hrun, hlogged, hclosed⟩ := run_logged keeps_closed c s
  refine ⟨result, report, es, s', hrun, hlogged, ?_⟩
  cases result with
  | ok a =>
    obtain ⟨r, head, l₀, h, rfl, _⟩ := hclosed
    have hstages : (({ r with head }.record .done .ran none).stages.map StageRecord.stage)
        = Stage.sequence ++ [.done] := by
      rw [Report.record, List.map_append, h.stages]
      rfl
    refine ⟨?_, ?_, ⟨fun _ => ⟨hstages, rfl, h.error⟩, fun _ => rfl⟩, nofun, nofun, nofun⟩
    · exact ⟨[], by rw [List.append_nil, hstages]⟩
    · rw [hstages]
      decide
  | error f =>
    obtain ⟨r, h, rfl⟩ := hclosed
    exact h.reachesInOrder

/-! ## The calls of a run -/

/-- The calls that a run may make, in order. -/
def callOrder (plan : Plan) : List Question :=
  [.ensureAvailable, .isWorkTree plan.checkout, .clone plan.repository plan.checkout]
    ++ plan.revision.toList.map (.checkout plan.checkout)
    ++ [.pull plan.checkout, .setupEnvironment, .setupPackages, .headRevision plan.checkout]

theorem callOrder_eq (plan : Plan) :
    callOrder plan = .ensureAvailable :: (Stage.sequence ++ [Stage.done]).flatMap (Stage.questions plan) := by
  simp [callOrder, Stage.sequence, Stage.questions]

theorem nodup_callOrder (plan : Plan) : (callOrder plan).Nodup := by
  cases h : plan.revision <;> simp [callOrder, h]

theorem StageRecord.questions_sublist (plan : Plan) (record : StageRecord) :
    ((record.calls plan).map Exchange.question).Sublist (record.stage.questions plan) := by
  obtain ⟨stage, outcome, note⟩ := record
  cases outcome with
  | ran =>
    cases stage <;> simp [StageRecord.calls, Stage.call?, Stage.questions]
    cases h : pinnedRevision plan with
    | none => simp
    | some revision => simp [(pinnedRevision_eq_some h).2]
  | skipped => cases stage <;> simp [StageRecord.calls, Stage.questions]

theorem questions_sublist (plan : Plan) (records : List StageRecord) :
    ((records.flatMap (StageRecord.calls plan)).map Exchange.question).Sublist
      ((records.map StageRecord.stage).flatMap (Stage.questions plan)) := by
  induction records with
  | nil => exact List.Sublist.slnil
  | cons record records ih =>
    rw [List.flatMap_cons, List.map_append, List.map_cons, List.flatMap_cons]
    exact (record.questions_sublist plan).append ih

theorem Report.mem_calls {e : Exchange} : e ∈ r.calls plan ↔
    e = ⟨.ensureAvailable, some (.ok ())⟩ ∨ ∃ record ∈ r.stages, e ∈ record.calls plan := by
  rw [Report.calls, List.mem_cons, List.mem_flatMap]

theorem StageRecord.not_failed (plan : Plan) (record : StageRecord) :
    ∀ e ∈ record.calls plan, e.isFailed = false := by
  obtain ⟨stage, outcome, note⟩ := record
  cases stage <;> cases outcome <;> simp [StageRecord.calls, Stage.call?, Exchange.isFailed]

theorem Report.not_failed {e : Exchange} (h : e ∈ r.calls plan) : e.isFailed = false := by
  rcases Report.mem_calls.mp h with rfl | ⟨record, _, he⟩
  · rfl
  · exact record.not_failed plan e he

/-- The stage that a call belongs to. -/
def Question.stage? : Question → Option Stage
  | isWorkTree _ => some .cloned
  | clone _ _ => some .cloned
  | checkout _ _ => some .pinned
  | pull _ => some .synced
  | setupEnvironment => some .envReady
  | setupPackages => some .pkgsReady
  | headRevision _ => some .done
  | _ => none

theorem Stage.stage_of_mem_questions {stage : Stage} {q : Question} (h : q ∈ stage.questions plan) :
    q.stage? = some stage := by
  cases stage <;> simp [Stage.questions] at h
  case cloned => rcases h with rfl | rfl <;> rfl
  case pinned =>
    obtain ⟨_, _, rfl⟩ := h
    rfl
  all_goals
    subst h
    rfl

theorem StageRecord.question_mem {record : StageRecord} {e : Exchange} (h : e ∈ record.calls plan) :
    e.question ∈ record.stage.questions plan :=
  (record.questions_sublist plan).mem (List.mem_map_of_mem h)

theorem StageRecord.stage_of_mem_calls {record : StageRecord} {e : Exchange}
    (h : e ∈ record.calls plan) : e.question.stage? = some record.stage :=
  Stage.stage_of_mem_questions (record.question_mem h)

/-- How a stage was reached, by a call that it made. -/
def Question.outcome : Question → Outcome
  | isWorkTree _ => .skipped
  | _ => .ran

theorem StageRecord.outcome_of_mem_calls (plan : Plan) (record : StageRecord) :
    ∀ e ∈ record.calls plan, record.outcome = e.question.outcome := by
  obtain ⟨stage, outcome, note⟩ := record
  cases stage <;> cases outcome <;> simp [StageRecord.calls, Stage.call?, Question.outcome]

/-- A stage that made a call is asked for, even if the call only looked at the checkout. -/
theorem StageRecord.Allowed.of_mem_calls {record : StageRecord} (h : record.Allowed plan) {e : Exchange}
    (he : e ∈ record.calls plan) : StageRecord.Allowed plan ⟨record.stage, .ran, none⟩ := by
  obtain ⟨stage, outcome, note⟩ := record
  cases outcome with
  | ran => exact fun _ => h rfl
  | skipped =>
    cases stage with
    | cloned =>
      dsimp only
      exact .of_ne (by decide) (by decide)
    | _ => cases he

theorem Stage.call?_isSome {stage : Stage} {note : Option String}
    (hallowed : StageRecord.Allowed plan ⟨stage, .ran, note⟩)
    (hstage : stage ∈ [Stage.cloned, .pinned, .synced, .envReady, .pkgsReady]) :
    ∃ e, stage.call? plan = some e := by
  cases stage with
  | pinned =>
    obtain ⟨revision, hrev⟩ := Option.isSome_iff_exists.mp ((hallowed rfl).1 rfl)
    exact ⟨_, by rw [Stage.call?, hrev]; rfl⟩
  | cloned => exact ⟨_, rfl⟩
  | synced => exact ⟨_, rfl⟩
  | envReady => exact ⟨_, rfl⟩
  | pkgsReady => exact ⟨_, rfl⟩
  | _ => simp at hstage

/-- A stage was carried out exactly if its call was made. -/
theorem Report.mem_executed (hallowed : ∀ record ∈ r.stages, record.Allowed plan) {stage : Stage}
    (hstage : stage ∈ [Stage.cloned, .pinned, .synced, .envReady, .pkgsReady]) :
    stage ∈ r.executed ↔ ∃ e ∈ stage.call? plan, e ∈ r.calls plan := by
  simp only [Report.executed, List.mem_map, List.mem_filter, beq_iff_eq]
  constructor
  · rintro ⟨⟨_, outcome, note⟩, ⟨hmem, rfl⟩, rfl⟩
    obtain ⟨e, he⟩ := Stage.call?_isSome (hallowed _ hmem) hstage
    refine ⟨e, he, Report.mem_calls.mpr (.inr ⟨_, hmem, ?_⟩)⟩
    rw [StageRecord.calls, Option.mem_toList]
    exact he
  · rintro ⟨e, he, hcall⟩
    have hcalls : e ∈ StageRecord.calls plan ⟨stage, .ran, none⟩ := Option.mem_toList.mpr he
    have hown := StageRecord.stage_of_mem_calls hcalls
    rcases Report.mem_calls.mp hcall with rfl | ⟨record, hmem, hrec⟩
    · cases hown
    · have hsame : record.stage = stage := by
        rw [StageRecord.stage_of_mem_calls hrec] at hown
        exact Option.some.inj hown
      refine ⟨record, ⟨hmem, ?_⟩, hsame⟩
      rw [record.outcome_of_mem_calls plan e hrec]
      exact (StageRecord.outcome_of_mem_calls plan _ e hcalls).symm

section Trails

variable {cs rest : List Exchange}

theorem Trail.count (h : Trail plan r cs rest) : r.stages.length ≤ 6 := by
  have := congrArg List.length h.stages
  simp [Stage.sequence] at this
  omega

theorem Trail.rest_cases (h : Trail plan r cs rest) : rest = [] ∨ ∃ e, rest = [e] := by
  have hsingle := h.single
  rcases rest with _ | ⟨e, _ | _⟩
  · exact .inl rfl
  · exact .inr ⟨e, rfl⟩
  · simp at hsingle

theorem Trail.sublist (h : Trail plan r cs rest) :
    (cs.map Exchange.question).Sublist (callOrder plan) := by
  have hrest : (rest.map Exchange.question).Sublist
      (((Stage.sequence ++ [Stage.done]).drop r.stages.length).flatMap (Stage.questions plan)) := by
    rcases h.rest_cases with rfl | ⟨e, rfl⟩
    · exact List.nil_sublist _
    · obtain ⟨stage, hstage, hq, _⟩ := h.next e (List.mem_singleton_self e)
      rw [List.map_singleton, List.singleton_sublist, List.mem_flatMap]
      refine ⟨stage, ?_, hq⟩
      rw [List.drop_eq_getElem_cons (List.getElem?_eq_some_iff.mp hstage).1]
      exact List.mem_cons.mpr (.inl (List.getElem?_eq_some_iff.mp hstage).2.symm)
  have hstages := questions_sublist plan r.stages
  have htake : Stage.sequence.take r.stages.length
      = (Stage.sequence ++ [Stage.done]).take r.stages.length :=
    (List.take_append_of_le_length h.count).symm
  rw [h.stages, htake] at hstages
  rw [h.calls, callOrder_eq, Report.calls, List.cons_append, List.map_cons, List.map_append]
  refine List.Sublist.cons_cons _ ?_
  -- The stages of the report have the first part of the order, and the next stage is in the second.
  rw [← List.take_append_drop r.stages.length (Stage.sequence ++ [Stage.done]), List.flatMap_append]
  exact hstages.append hrest

/-- Every call but the first belongs to a stage that the plan asks for. -/
theorem Trail.belongs (h : Trail plan r cs rest) {e : Exchange} (he : e ∈ cs) :
    e.question = .ensureAvailable ∨ ∃ stage, e.question ∈ stage.questions plan ∧
      StageRecord.Allowed plan ⟨stage, .ran, none⟩ := by
  rw [h.calls, List.mem_append] at he
  rcases he with he | he
  · rcases Report.mem_calls.mp he with rfl | ⟨record, hmem, hrec⟩
    · exact .inl rfl
    · exact .inr ⟨record.stage, record.question_mem hrec, (h.allowed record hmem).of_mem_calls hrec⟩
  · obtain ⟨stage, _, hq, hallowed⟩ := h.next e he
    exact .inr ⟨stage, hq, hallowed⟩

/-- The checkout is looked at or cloned, not both. -/
theorem Trail.not_both (h : Trail plan r cs rest) {e₁ e₂ : Exchange} (h₁ : e₁ ∈ cs) (h₂ : e₂ ∈ cs)
    (hq₁ : e₁.question = .isWorkTree plan.checkout)
    (hq₂ : e₂.question = .clone plan.repository plan.checkout) : False := by
  have hne : e₁ ≠ e₂ := by
    intro heq
    rw [heq, hq₂] at hq₁
    cases hq₁
  -- A call of the stage `cloned` is in the report exactly if the stage is.
  have place : ∀ e ∈ cs, e.question.stage? = some .cloned →
      (∃ record ∈ r.stages, record.stage = .cloned ∧ e ∈ record.calls plan) ∨ r.stages = [] ∧ e ∈ rest := by
    intro e he hstage
    rw [h.calls, List.mem_append] at he
    rcases he with he | he
    · rcases Report.mem_calls.mp he with rfl | ⟨record, hmem, hrec⟩
      · cases hstage
      · rw [StageRecord.stage_of_mem_calls hrec, Option.some.injEq] at hstage
        exact .inl ⟨record, hmem, hstage, hrec⟩
    · obtain ⟨stage, hnth, hq, _⟩ := h.next e he
      rw [Stage.stage_of_mem_questions hq, Option.some.injEq] at hstage
      subst hstage
      have hfirst : ∀ n < 7, (Stage.sequence ++ [Stage.done])[n]? = some .cloned → n = 0 := by decide
      exact .inr ⟨List.eq_nil_of_length_eq_zero (hfirst _ (Nat.lt_succ_of_le h.count) hnth), he⟩
  rcases place e₁ h₁ (by rw [hq₁]; rfl) with ⟨record₁, hmem₁, hs₁, hrec₁⟩ | ⟨hnil, hrest₁⟩
  · rcases place e₂ h₂ (by rw [hq₂]; rfl) with ⟨record₂, hmem₂, hs₂, hrec₂⟩ | ⟨hnil, _⟩
    · have hnodup : (r.stages.map StageRecord.stage).Nodup := by
        rw [h.stages]
        exact (List.take_sublist _ _).nodup (by decide)
      have hsame := List.inj_on_of_nodup_map hnodup hmem₁ hmem₂ (hs₁.trans hs₂.symm)
      have hout₁ := record₁.outcome_of_mem_calls plan e₁ hrec₁
      have hout₂ := record₂.outcome_of_mem_calls plan e₂ hrec₂
      rw [hsame, hout₂, hq₁, hq₂] at hout₁
      cases hout₁
    · rw [hnil] at hmem₁
      cases hmem₁
  · rcases place e₂ h₂ (by rw [hq₂]; rfl) with ⟨record₂, hmem₂, _⟩ | ⟨_, hrest₂⟩
    · rw [hnil] at hmem₂
      cases hmem₂
    · rcases h.rest_cases with rfl | ⟨e, rfl⟩
      · cases hrest₁
      · exact hne ((List.mem_singleton.mp hrest₁).trans (List.mem_singleton.mp hrest₂).symm)

theorem Trail.last_of_failed (h : Trail plan r cs rest) {before after : List Exchange} {e : Exchange}
    (hcs : cs = before ++ e :: after) (hfailed : e.isFailed = true) : after = [] := by
  have hlast : ∀ c, rest = c ++ e :: after → after = [] := by
    intro c hc
    have := h.single
    rw [hc, List.length_append, List.length_cons] at this
    exact List.eq_nil_of_length_eq_zero (by omega)
  rw [h.calls, List.append_eq_append_iff] at hcs
  rcases hcs with ⟨c, _, hrest⟩ | ⟨c, hcalls, hrest⟩
  · exact hlast c hrest
  · cases c with
    | nil => exact hlast [] hrest.symm
    | cons e' c =>
      obtain ⟨rfl, _⟩ := List.cons.inj hrest
      have hmem : e ∈ r.calls plan := by
        rw [hcalls]
        exact List.mem_append_right _ (List.mem_cons_self ..)
      rw [Report.not_failed hmem] at hfailed
      cases hfailed

end Trails

/-- What a run asks source control and the setup steps for. -/
structure CallsInOrder (plan : Plan) (result : Except Failure Unit) (report : Report)
    (es : List Exchange) : Prop where
  order : ((calls es).map Exchange.question).Sublist (callOrder plan)
  once : ((calls es).map Exchange.question).Nodup
  not_both : ¬ (.isWorkTree plan.checkout ∈ (calls es).map Exchange.question ∧
    .clone plan.repository plan.checkout ∈ (calls es).map Exchange.question)
  /-- Nothing is called after a failure. -/
  last_of_failed : ∀ before e after, calls es = before ++ e :: after → e.isFailed = true → after = []
  no_pull : plan.syncPolicy = .pinned → .pull plan.checkout ∉ (calls es).map Exchange.question
  checkout : ∀ repo revision, .checkout repo revision ∈ (calls es).map Exchange.question →
    plan.syncPolicy ≠ .latest ∧ plan.revision = some revision
  head_iff : .headRevision plan.checkout ∈ (calls es).map Exchange.question ↔ result = .ok ()
  cloned_iff : .cloned ∈ report.executed ↔
    ⟨.clone plan.repository plan.checkout, some (.ok ())⟩ ∈ es
  pinned_iff : .pinned ∈ report.executed ↔
    ∃ revision, ⟨.checkout plan.checkout revision, some (.ok ())⟩ ∈ es
  synced_iff : .synced ∈ report.executed ↔ ⟨.pull plan.checkout, some (.ok ())⟩ ∈ es
  envReady_iff : .envReady ∈ report.executed ↔ ⟨.setupEnvironment, some (.ok ())⟩ ∈ es
  pkgsReady_iff : .pkgsReady ∈ report.executed ↔ ⟨.setupPackages, some (.ok ())⟩ ∈ es

section

variable {result : Except Failure Unit} {report : Report} {es : List Exchange}

theorem Question.isCall_of_stage {q : Question} {stage : Stage} (h : q.stage? = some stage) :
    q.isCall = true := by
  cases q <;> simp_all [Question.stage?, Question.isCall]

theorem mem_calls_iff {e : Exchange} (stage : Stage) (hstage : e.question.stage? = some stage) :
    e ∈ calls es ↔ e ∈ es := by
  rw [calls, List.mem_filter, and_iff_left_iff_imp]
  exact fun _ => Question.isCall_of_stage hstage

/-- The calls are in order if each belongs to a stage and the report tells which stages were carried out. -/
theorem CallsInOrder.of_belongs
    (order : ((calls es).map Exchange.question).Sublist (callOrder plan))
    (not_both : ¬ (.isWorkTree plan.checkout ∈ (calls es).map Exchange.question ∧
      .clone plan.repository plan.checkout ∈ (calls es).map Exchange.question))
    (last_of_failed : ∀ before e after, calls es = before ++ e :: after → e.isFailed = true → after = [])
    (belongs : ∀ e ∈ calls es, e.question = .ensureAvailable ∨ ∃ stage,
      e.question ∈ stage.questions plan ∧ StageRecord.Allowed plan ⟨stage, .ran, none⟩)
    (head_iff : .headRevision plan.checkout ∈ (calls es).map Exchange.question ↔ result = .ok ())
    (executed : ∀ stage ∈ [Stage.cloned, .pinned, .synced, .envReady, .pkgsReady],
      stage ∈ report.executed ↔ ∃ e ∈ stage.call? plan, e ∈ calls es) :
    CallsInOrder plan result report es := by
  have allowed : ∀ q ∈ (calls es).map Exchange.question, ∀ stage, q.stage? = some stage →
      q ∈ stage.questions plan ∧ StageRecord.Allowed plan ⟨stage, .ran, none⟩ := by
    intro q hq stage hstage
    obtain ⟨e, he, rfl⟩ := List.mem_map.mp hq
    rcases belongs e he with hfirst | ⟨own, hown, hallowed⟩
    · rw [hfirst] at hstage
      cases hstage
    · rw [Stage.stage_of_mem_questions hown, Option.some.injEq] at hstage
      exact hstage ▸ ⟨hown, hallowed⟩
  have checkout : ∀ repo revision, .checkout repo revision ∈ (calls es).map Exchange.question →
      plan.syncPolicy ≠ .latest ∧ plan.revision = some revision := by
    intro repo revision hq
    obtain ⟨hown, hallowed⟩ := allowed _ hq .pinned rfl
    obtain ⟨pinned, hpinned⟩ := Option.isSome_iff_exists.mp ((hallowed rfl).1 rfl)
    obtain ⟨hpolicy, hrev⟩ := pinnedRevision_eq_some hpinned
    rw [Stage.questions, hrev] at hown
    obtain ⟨_, hmem, heq⟩ := List.mem_map.mp hown
    injection heq with _ heq
    subst heq
    rw [Option.toList_some, List.mem_singleton] at hmem
    exact ⟨hpolicy, hmem ▸ hrev⟩
  have carried : ∀ stage ∈ [Stage.cloned, .pinned, .synced, .envReady, .pkgsReady], ∀ e,
      stage.call? plan = some e → e.question.stage? = some stage →
      (stage ∈ report.executed ↔ e ∈ es) := by
    intro stage hstage e he hown
    rw [executed stage hstage, he, ← mem_calls_iff stage hown]
    simp
  refine ⟨order, order.nodup (nodup_callOrder plan), not_both, last_of_failed, ?_, checkout, head_iff,
    carried .cloned (by simp) _ rfl rfl, ?_, carried .synced (by simp) _ rfl rfl,
    carried .envReady (by simp) _ rfl rfl, carried .pkgsReady (by simp) _ rfl rfl⟩
  · intro hpolicy hpull
    exact ((allowed _ hpull .synced rfl).2 rfl).2 rfl hpolicy
  · rw [executed .pinned (by simp)]
    constructor
    · rintro ⟨e, he, hmem⟩
      obtain ⟨revision, _, rfl⟩ := Option.map_eq_some_iff.mp he
      exact ⟨revision, (mem_calls_iff .pinned rfl).mp hmem⟩
    · rintro ⟨revision, hmem⟩
      have hmem := (mem_calls_iff .pinned rfl).mpr hmem
      obtain ⟨hpolicy, hrev⟩ := checkout _ revision (List.mem_map_of_mem hmem)
      refine ⟨_, ?_, hmem⟩
      rw [Stage.call?, pinnedRevision, if_neg hpolicy, hrev]
      rfl

/-- A trail with its report, where the last call has failed or looks at the commit. -/
theorem Trail.callsInOrder {rest : List Exchange} (h : Trail plan r (Bringup.calls es) rest)
    (hrest : ∀ e ∈ rest, e.isFailed = true ∨ e.question = .headRevision plan.checkout)
    (hhead : (∃ e ∈ rest, e.question = .headRevision plan.checkout) ↔ result = .ok ())
    (hexecuted : ∀ stage ≠ .done, stage ∈ report.executed ↔ stage ∈ r.executed) :
    CallsInOrder plan result report es := by
  refine .of_belongs h.sublist ?_ (fun _ _ _ => h.last_of_failed) (fun _ => h.belongs) ?_ ?_
  · rintro ⟨h₁, h₂⟩
    obtain ⟨e₁, hmem₁, hq₁⟩ := List.mem_map.mp h₁
    obtain ⟨e₂, hmem₂, hq₂⟩ := List.mem_map.mp h₂
    exact h.not_both hmem₁ hmem₂ hq₁ hq₂
  · rw [← hhead, h.calls, List.map_append, List.mem_append, List.mem_map, List.mem_map]
    refine ⟨fun hmem => hmem.resolve_left ?_, .inr⟩
    rintro ⟨e, he, hq⟩
    -- The commit is looked up in the stage `done`, which is not in the report yet.
    rcases Report.mem_calls.mp he with rfl | ⟨record, hmem, hrec⟩
    · cases hq
    · have hstage := StageRecord.stage_of_mem_calls hrec
      rw [hq, Question.stage?, Option.some.injEq] at hstage
      have hin : record.stage ∈ Stage.sequence :=
        List.take_subset _ _ (h.stages ▸ List.mem_map_of_mem hmem)
      rw [← hstage] at hin
      revert hin
      decide
  · intro stage hstage
    have hne : stage ≠ .done := by
      rintro rfl
      revert hstage
      decide
    rw [hexecuted stage hne, Report.mem_executed h.allowed hstage]
    refine exists_congr fun e => and_congr_right fun he => ?_
    have hcall : e ∈ StageRecord.calls plan ⟨stage, .ran, none⟩ := Option.mem_toList.mpr he
    rw [h.calls, List.mem_append, iff_self_or]
    intro hmem
    rcases hrest e hmem with hfailed | hq
    · rw [StageRecord.not_failed plan _ e hcall] at hfailed
      cases hfailed
    · have hown := StageRecord.stage_of_mem_calls hcall
      rw [hq, Question.stage?, Option.some.injEq] at hown
      exact absurd hown.symm hne

theorem callsInOrder_of_unavailable {f : Failure} {e : CommandFailure} (hstages : report.stages = [])
    (hcalls : calls es = [⟨.ensureAvailable, some (.error e)⟩]) :
    CallsInOrder plan (.error f) report es := by
  refine .of_belongs ?_ ?_ ?_ ?_ ?_ ?_
  · rw [hcalls, callOrder]
    simp
  · simp [hcalls]
  · intro before e after h _
    have := congrArg List.length (hcalls.symm.trans h)
    rw [List.length_singleton, List.length_append, List.length_cons] at this
    exact List.eq_nil_of_length_eq_zero (by omega)
  · simp [hcalls]
  · simp [hcalls]
  · intro stage _
    rw [Report.executed, hstages, hcalls]
    refine ⟨nofun, ?_⟩
    rintro ⟨call, hown, hmem⟩
    have hcall : call ∈ StageRecord.calls plan ⟨stage, .ran, none⟩ := Option.mem_toList.mpr hown
    rw [List.mem_singleton.mp hmem] at hcall
    cases StageRecord.stage_of_mem_calls hcall

end

/-- The calls of every run are in order, and the report tells which of them succeeded. -/
theorem run_calls_in_order {σ : Type} (c : Collaborators (StateM σ)) (plan : Plan) (s : σ) :
    ∃ result report es s', (run c plan (.ofPlan plan)).run s = ((result, report), s') ∧
      ((run c.logged plan (.ofPlan plan)).run []).run s = (((result, report), es), s') ∧
      CallsInOrder plan result report es := by
  obtain ⟨result, report, es, s', hrun, hlogged, hclosed⟩ := run_logged keeps_closed c s
  refine ⟨result, report, es, s', hrun, hlogged, ?_⟩
  cases result with
  | ok a =>
    obtain ⟨r, head, l₀, h, rfl, hcalls⟩ := hclosed
    have hlen := h.length (Nat.le_refl 6)
    have htrail : Trail plan r (calls es) [⟨.headRevision plan.checkout, some head⟩] := by
      refine ⟨by rw [hlen]; exact h.stages, h.allowed, hcalls, Nat.le_refl 1, fun e he => ?_⟩
      rw [List.mem_singleton.mp he, hlen]
      exact ⟨.done, rfl, List.mem_singleton_self _, .of_ne (by decide) (by decide)⟩
    refine htrail.callsInOrder (fun e he => ?_) ⟨fun _ => rfl, fun _ => ?_⟩ fun stage hstage => ?_
    · rw [List.mem_singleton.mp he]
      exact .inr rfl
    · exact ⟨_, List.mem_singleton_self _, rfl⟩
    · simp [Report.executed, Report.record, hstage]
  | error f =>
    obtain ⟨r, h, rfl⟩ := hclosed
    rcases h.calls with ⟨rest, htrail, hfailed⟩ | ⟨hnil, e, hcalls⟩
    · refine htrail.callsInOrder (fun e he => .inl (hfailed e he)) ⟨?_, nofun⟩ fun _ _ => Iff.rfl
      rintro ⟨⟨_, answer⟩, he, rfl⟩
      cases hfailed _ he
    · exact callsInOrder_of_unavailable hnil hcalls

end Bringup

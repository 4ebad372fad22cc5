import Bringup.Proofs.Marks

/-!
# What a skipped setup step rests on

A run says that it skips a stage in its log and in its report. `skipped_was_loaded`: it does so for a setup
step only if the record that it found was made for its own target and marks the step, and only in a checkout
that it has not made itself.
-/

namespace Bringup

set_option autoImplicit false

open Procedure Dialogue

/-- The stages that set something up. -/
def Stage.setups : List Stage := [envReady, pkgsReady]

/-- A new checkout was made, as far as can be told. -/
def Exchange.isClone : Exchange → Bool
  | ⟨.clone _ _, some (.error _)⟩ => false
  | ⟨.clone _ _, _⟩ => true
  | _ => false

/-- A stage is told of with an outcome: in the report, or in the log. -/
def Tells (stage : Stage) (outcome : Outcome) (report? : Option Report) (es : List Exchange) : Prop :=
  (∃ report ∈ report?, ∃ note, ⟨stage, outcome, note⟩ ∈ report.stages) ∨
    ∃ report, .log .debug (transition report stage outcome) ∈ es.map Exchange.question

/-- A run records a stage with an outcome. If it was broken off, only its log tells. -/
def Visit.Records (v : Visit) (stage : Stage) (outcome : Outcome) : Prop :=
  Tells stage outcome (v.result.map Prod.snd) v.exchanges

/-! ## Log lines -/

/-- The end of a log line on a stage, backwards. -/
def lineEnd (stage : Stage) (outcome : Outcome) : List Char :=
  (" -> " ++ stage.name ++ " (" ++ outcome.title ++ ")").toList.reverse

theorem lineEnd_begins (r : Report) (stage : Stage) (outcome : Outcome) :
    lineEnd stage outcome <+: (transition r stage outcome).toList.reverse := by
  refine ⟨r.stage.name.toList.reverse, ?_⟩
  simp [lineEnd, transition, toString]

theorem eq_of_lineEnd : ∀ stage ∈ Stage.plain, ∀ stage' ∈ Stage.plain, ∀ outcome ∈ [Outcome.ran, .skipped],
    ∀ outcome' ∈ [Outcome.ran, .skipped], lineEnd stage outcome <+: lineEnd stage' outcome' →
    stage = stage' ∧ outcome = outcome' := by
  decide +kernel

/-- A log line tells which stage was reached and how. -/
theorem transition_inj {r r' : Report} {stage stage' : Stage} {outcome outcome' : Outcome}
    (hstage : stage ∈ Stage.plain) (hstage' : stage' ∈ Stage.plain)
    (h : transition r stage outcome = transition r' stage' outcome') :
    stage = stage' ∧ outcome = outcome' := by
  -- Backwards a line begins with its outcome and stage, and no such beginning is one of another.
  have houtcome : ∀ outcome, outcome ∈ [Outcome.ran, .skipped] := by
    rintro (_ | _) <;> simp
  have hend := lineEnd_begins r stage outcome
  rw [h] at hend
  rcases List.prefix_or_prefix_of_prefix hend (lineEnd_begins r' stage' outcome') with h | h
  · exact eq_of_lineEnd _ hstage _ hstage' _ (houtcome _) _ (houtcome _) h
  · exact (eq_of_lineEnd _ hstage' _ hstage _ (houtcome _) _ (houtcome _) h).imp Eq.symm Eq.symm

/-! ## What has been told so far -/

section

variable {r : Report} {l es : List Exchange} {stage other : Stage} {outcome : Outcome} {note : Option String}

/-- Exchanges other than on a stage that is reached tell nothing. -/
theorem tells_append (hes : ∀ e ∈ es, ∀ message, e.question ≠ .log .debug message) :
    Tells other .skipped (some r) (l ++ es) ↔ Tells other .skipped (some r) l := by
  refine or_congr_right (exists_congr fun report => ?_)
  rw [List.map_append, List.mem_append, or_iff_left]
  intro hmem
  obtain ⟨e, he, hq⟩ := List.mem_map.mp hmem
  exact hes e he _ hq

theorem Tells.of_record {a : Option Unit} (hstage : stage ∈ Stage.plain) (hother : other ∈ Stage.plain)
    (h : Tells other .skipped (some (r.record stage outcome note))
      (l ++ [⟨.log .debug (transition r stage outcome), a⟩])) :
    (other = stage ∧ outcome = .skipped) ∨ Tells other .skipped (some r) l := by
  rcases h with ⟨report, hreport, note', hmem⟩ | ⟨report, hmem⟩
  · obtain rfl := Option.some.inj hreport
    rcases List.mem_append.mp hmem with hold | hnew
    · exact .inr (.inl ⟨r, rfl, note', hold⟩)
    · injection List.mem_singleton.mp hnew with hsame houtcome
      exact .inl ⟨hsame, houtcome.symm⟩
  · rw [List.map_append, List.mem_append] at hmem
    rcases hmem with hold | hnew
    · exact .inr (.inr ⟨report, hold⟩)
    · injection List.mem_singleton.mp hnew with _ hline
      obtain ⟨hsame, houtcome⟩ := transition_inj hother hstage hline
      exact .inl ⟨hsame, houtcome.symm⟩

theorem Stage.plain_of_setups (h : stage ∈ Stage.setups) : stage ∈ Stage.plain := by
  revert h
  simp only [Stage.setups, List.mem_cons, List.not_mem_nil, or_false]
  rintro (rfl | rfl) <;> decide

end

/-- A setup step may be skipped: it is marked in the record that was found, which has the plan's target, and
no checkout has been made since. -/
def Warranted (found : Option Progress) (plan : Plan) (stage : Stage) (l : List Exchange) : Prop :=
  (∃ p, found = some p ∧ p.target = plan.targetLabel ∧ stage ∈ p.completed) ∧ ∀ e ∈ l, e.isClone = false

/-- Whatever setup step was skipped could be. -/
def Sincere (found : Option Progress) (plan : Plan) (r : Report) (l : List Exchange) : Prop :=
  ∀ stage ∈ Stage.setups, Tells stage .skipped (some r) l → Warranted found plan stage l

/-- A run is sincere so far, and will be if it skips a setup step in `rest` that its progress marks. -/
structure Aware (found : Option Progress) (plan : Plan) (rest : List Stage) (p : Progress) (r : Report)
    (v : Option Progress × List Exchange) : Prop where
  sincere : Sincere found plan r v.2
  marks : ∀ stage ∈ rest, stage ∈ p.completed → Warranted found plan stage v.2

/-- A question that makes no checkout and tells of no stage. -/
def Question.isDull : Question → Bool
  | clone _ _ => false
  | log level _ => level != .debug
  | _ => true

section

variable {found : Option Progress} {plan : Plan} {rest : List Stage} {p : Progress} {r : Report}
  {v v' : Option Progress × List Exchange}

theorem Warranted.append {stage : Stage} {l es : List Exchange} (h : Warranted found plan stage l)
    (hes : ∀ e ∈ es, e.isClone = false) : Warranted found plan stage (l ++ es) :=
  ⟨h.1, fun e he => (List.mem_append.mp he).elim (h.2 e) (hes e)⟩

theorem Exchange.isClone_of_question {e : Exchange} (he : e.question.isClone = false) :
    e.isClone = false := by
  obtain ⟨q, a⟩ := e
  cases q with
  | clone _ _ => cases he
  | _ => rfl

theorem Question.isClone_of_isDull {q : Question} (hq : q.isDull = true) : q.isClone = false := by
  cases q with
  | clone _ _ => cases hq
  | _ => rfl

theorem Exchange.isHeard_of_isClone {e : Exchange} (he : e.isClone = true) : e.isHeard = true := by
  obtain ⟨q, a⟩ := e
  cases q with
  | clone _ _ => rfl
  | _ => cases he

theorem bare_of_heard {es : List Exchange} (h : ∀ e ∈ es.filter Exchange.isHeard, e.isClone = false) :
    ∀ e ∈ es, e.isClone = false := by
  intro e he
  cases hclone : e.isClone with
  | false => rfl
  | true =>
    rw [← hclone]
    exact h e (List.mem_filter.mpr ⟨he, Exchange.isHeard_of_isClone hclone⟩)

/-- A dull question adds nothing that tells or clones. -/
theorem append_of_isDull {e : Exchange} (he : e.question.isDull = true)
    (hs : (progressMoves plan.checkout).noted v e v') :
    ∃ es, v'.2 = v.2 ++ es ∧ (∀ e ∈ es, e.isClone = false) ∧
      ∀ e ∈ es, ∀ message, e.question ≠ .log .debug message := by
  refine ⟨_, hs.2, fun e' he' => ?_, fun e' he' message hlog => ?_⟩
  · rw [eq_of_mem_heard he']
    exact Exchange.isClone_of_question (Question.isClone_of_isDull he)
  · rw [← eq_of_mem_heard he', hlog] at he
    cases he

theorem Aware.dull (h : Aware found plan rest p r v) {e : Exchange} (he : e.question.isDull = true)
    (hs : (progressMoves plan.checkout).noted v e v') : Aware found plan rest p r v' := by
  obtain ⟨es, hl, hclone, hline⟩ := append_of_isDull he hs
  refine ⟨fun stage hstage htold => ?_, fun stage hstage hmark => ?_⟩
  · rw [hl, tells_append hline] at htold
    rw [hl]
    exact (h.sincere stage hstage htold).append hclone
  · rw [hl]
    exact (h.marks stage hstage hmark).append hclone

theorem Aware.weaken (h : Aware found plan rest p r v) {rest' : List Stage} (hrest : rest' ⊆ rest) :
    Aware found plan rest' p r v :=
  ⟨h.sincere, fun stage hstage => h.marks stage (hrest hstage)⟩

/-- Where a run that is broken off leaves its log. -/
def BrokenOff (found : Option Progress) (plan : Plan) (v : Option Progress × List Exchange) : Prop :=
  ∃ r, Sincere found plan r v.2

/-- Where a run that fails leaves its log and report. -/
def GivenUp (found : Option Progress) (plan : Plan) (_ : Failure) (r : Report)
    (v : Option Progress × List Exchange) : Prop :=
  Sincere found plan r v.2

theorem Aware.keeps {q : Question} {Q : q.Answer → Option Progress × List Exchange → Prop}
    (h : Aware found plan rest p r v) (hq : q.isDull = true)
    (hQ : ∀ a v', Aware found plan rest p r v' → Q a v') :
    (ask q ends).Keeps (progressMoves plan.checkout).noted (BrokenOff found plan) Q v :=
  ⟨fun _ hs => ⟨r, (h.dull hq hs).sincere⟩, fun a v' hs => hQ a v' (h.dull hq hs)⟩

theorem Aware.reached {stage : Stage} {outcome : Outcome} {note : Option String}
    (h : Aware found plan rest p r v) (hstage : stage ∈ Stage.plain)
    (hskip : stage ∈ Stage.setups → outcome = .skipped → Warranted found plan stage v.2) :
    Reached (progressMoves plan.checkout).noted (BrokenOff found plan) stage outcome note
      (Aware found plan rest p) r v := by
  have hafter : ∀ {a v'}, (progressMoves plan.checkout).noted v
      ⟨.log .debug (transition r stage outcome), a⟩ v' →
      Aware found plan rest p (r.record stage outcome note) v' := by
    intro a v' hs
    have hl : v'.2 = v.2 ++ [⟨.log .debug (transition r stage outcome), a⟩] := hs.2
    have hclone : ∀ e ∈ [(⟨.log .debug (transition r stage outcome), a⟩ : Exchange)], e.isClone = false := by
      intro e he
      rw [List.mem_singleton.mp he]
      rfl
    refine ⟨fun other hother htold => ?_, fun other hother hmark => ?_⟩
    · rw [hl] at htold ⊢
      rcases Tells.of_record hstage (Stage.plain_of_setups hother) htold with ⟨rfl, houtcome⟩ | hearlier
      · exact (hskip hother houtcome).append hclone
      · exact (h.sincere other hother hearlier).append hclone
    · rw [hl]
      exact (h.marks other hother hmark).append hclone
  exact ⟨fun v' hs => ⟨_, (hafter hs).sincere⟩, fun a v' hs => hafter hs⟩

theorem Aware.completed {stage : Stage} (h : Aware found plan rest p r v) (hrest : stage ∉ rest) :
    Completed (progressMoves plan.checkout).noted (BrokenOff found plan) (GivenUp found plan) plan p stage
      (Aware found plan rest) r v := by
  refine ⟨⟨r, h.sincere⟩, fun t _ => h.keeps rfl fun result v h => ?_⟩
  cases result with
  | error e => exact h.sincere
  | ok a =>
    refine ⟨h.sincere, fun other hother hmark => h.marks other hother ?_⟩
    refine (Progress.mem_mark.mp hmark).resolve_right ?_
    rintro rfl
    exact hrest hother

theorem Aware.advances {ε : Type} (h : Aware found plan rest p r v) {stage : Stage} {q : Question}
    {op : Dialogue (Except ε Unit)} {wrap : ε → Failure} {made : Except ε Unit → Exchange}
    (hop : Asks op q made) (hq : q.isDull = true) (hstage : stage ∈ Stage.plain) (hrest : stage ∉ rest) :
    Advances (progressMoves plan.checkout).noted (BrokenOff found plan) (GivenUp found plan) plan p stage op
      wrap (Aware found plan rest) r v := by
  have hdull : ∀ result, (made result).question.isDull = true := fun result => by rw [hop.question, hq]
  refine hop.advances (fun v' hs => ⟨r, (h.dull hq hs).sincere⟩) (fun e v' hs => ?_) fun v' hs => ?_
  · exact (h.dull (hdull _) hs).sincere
  · refine Reached.mono ((h.dull (hdull _) hs).reached hstage ?_) fun r v h => h.completed hrest
    intro _ hran
    cases hran

/-- No setup step has been skipped. -/
def Untold (r : Report) (l : List Exchange) : Prop :=
  ∀ stage ∈ Stage.setups, ¬ Tells stage .skipped (some r) l

theorem Untold.aware (h : Untold r v.2) (t : Instant) :
    Aware found plan Stage.setups (.fresh plan.targetLabel t) r v :=
  ⟨fun stage hstage htold => absurd htold (h stage hstage), nofun⟩

theorem Untold.brokenOff (h : Untold r v.2) : BrokenOff found plan v :=
  ⟨r, fun stage hstage htold => absurd htold (h stage hstage)⟩

theorem Untold.givenUp {f : Failure} (h : Untold r v.2) : GivenUp found plan f r v :=
  fun stage hstage htold => absurd htold (h stage hstage)

theorem Untold.reached {stage : Stage} {outcome : Outcome} {note : Option String}
    {Q : Report → Option Progress × List Exchange → Prop} (h : Untold r v.2) (hplain : stage ∈ Stage.plain)
    (hstage : stage ∉ Stage.setups)
    (hQ : ∀ a v', (progressMoves plan.checkout).noted v ⟨.log .debug (transition r stage outcome), a⟩ v' →
      Untold (r.record stage outcome note) v'.2 → Q (r.record stage outcome note) v') :
    Reached (progressMoves plan.checkout).noted (BrokenOff found plan) stage outcome note Q r v := by
  have hafter : ∀ {a v'}, (progressMoves plan.checkout).noted v
      ⟨.log .debug (transition r stage outcome), a⟩ v' → Untold (r.record stage outcome note) v'.2 := by
    intro a v' hs other hother htold
    have hl : v'.2 = v.2 ++ [⟨.log .debug (transition r stage outcome), a⟩] := hs.2
    rw [hl] at htold
    rcases Tells.of_record hplain (Stage.plain_of_setups hother) htold with ⟨rfl, _⟩ | hearlier
    · exact hstage hother
    · exact h other hother hearlier
  exact ⟨fun v' hs => (hafter hs).brokenOff, fun a v' hs => hQ (some a) v' hs (hafter hs)⟩

/-- Before the checkout is there: the record is the one that was found or gone. -/
structure Opening (found : Option Progress) (r : Report) (v : Option Progress × List Exchange) : Prop where
  record : v.1 = found ∨ v.1 = none
  bare : ∀ e ∈ v.2, e.isClone = false
  untold : Untold r v.2

theorem Opening.spared (h : Opening found r v) (hrecord : v'.1 = v.1 ∨ v'.1 = none) :
    v'.1 = found ∨ v'.1 = none := by
  rcases hrecord with hsame | hnone
  · rw [hsame]
    exact h.record
  · exact .inr hnone

theorem Opening.dull (h : Opening found r v) {e : Exchange} (he : e.question.isDull = true)
    (hs : (progressMoves plan.checkout).noted v e v') (hrecord : v'.1 = v.1 ∨ v'.1 = none) :
    Opening found r v' := by
  obtain ⟨es, hl, hclone, hline⟩ := append_of_isDull he hs
  refine ⟨h.spared hrecord, fun e' he' => ?_, fun stage hstage htold => ?_⟩
  · rw [hl] at he'
    exact (List.mem_append.mp he').elim (h.bare e') (hclone e')
  · rw [hl, tells_append hline] at htold
    exact h.untold stage hstage htold

theorem Opening.keeps {q : Question} {Q : q.Answer → Option Progress × List Exchange → Prop}
    (h : Opening found r v) (hdull : q.isDull = true) (hapart : q.isApart = true)
    (hQ : ∀ a v', Opening found r v' → Q a v') :
    (ask q ends).Keeps (progressMoves plan.checkout).noted (BrokenOff found plan) Q v := by
  have hafter : ∀ {a v'}, (progressMoves plan.checkout).noted v ⟨q, a⟩ v' → Opening found r v' :=
    fun hs => h.dull hdull hs (spared_of_isApart hapart hs.1)
  exact ⟨fun v' hs => (hafter hs).untold.brokenOff, fun a v' hs => hQ a v' (hafter hs)⟩

theorem Opening.reached {stage : Stage} {outcome : Outcome} {note : Option String}
    {Q : Report → Option Progress × List Exchange → Prop} (h : Opening found r v)
    (hplain : stage ∈ Stage.plain) (hstage : stage ∉ Stage.setups)
    (hQ : ∀ v', Opening found (r.record stage outcome note) v' → Q (r.record stage outcome note) v') :
    Reached (progressMoves plan.checkout).noted (BrokenOff found plan) stage outcome note Q r v := by
  refine h.untold.reached hplain hstage fun a v' hs huntold => hQ v' ⟨?_, fun e he => ?_, huntold⟩
  · exact h.spared (spared_of_isApart rfl hs.1)
  · rw [hs.2] at he
    refine (List.mem_append.mp he).elim (h.bare e) fun he => ?_
    rw [eq_of_mem_heard he]
    rfl

theorem Opening.takesUp (h : Opening found r v) (hloaded : v.1 = some p)
    (htarget : p.target = plan.targetLabel) : Aware found plan Stage.setups p r v := by
  have hfound : found = some p := by
    rcases h.record with hsame | hnone
    · rw [← hsame, hloaded]
    · rw [hnone] at hloaded
      cases hloaded
  refine ⟨fun stage hstage htold => absurd htold (h.untold stage hstage), fun stage _ hmark => ?_⟩
  exact ⟨⟨p, hfound, htarget, hmark⟩, h.bare⟩

variable (environment packages : String)

theorem Opening.acquire (h : Opening found r v) :
    Step.Holds (progressMoves plan.checkout).noted (BrokenOff found plan) (GivenUp found plan)
      (acquire (.asked environment packages) plan)
      (fun p r v => Completed (progressMoves plan.checkout).noted (BrokenOff found plan) (GivenUp found plan)
        plan p .cloned (Aware found plan Stage.setups) r v) r v := by
  have hcloned : Stage.cloned ∉ Stage.setups := by decide
  have anew : ∀ {r v}, Untold r v.2 → ∀ t,
      Completed (progressMoves plan.checkout).noted (BrokenOff found plan) (GivenUp found plan) plan
        (.fresh plan.targetLabel t) .cloned (Aware found plan Stage.setups) r v :=
    fun h t => (h.aware t).completed hcloned
  refine holds_acquire (quiet_progressMoves plan.checkout).noted (h.keeps rfl rfl fun there v h => ?_)
  cases there with
  | true =>
    rw [if_pos rfl, Resumes]
    split
    · exact fun _ => h.untold.givenUp
    refine h.keeps rfl rfl fun isTree v h => ?_
    split
    · refine ⟨h.untold.brokenOff, h.reached (by decide) hcloned fun v h => ?_⟩
      refine ⟨fun v' hs => ?_, fun loaded v' hs => ?_⟩
      · exact (h.dull rfl hs (hs.1.imp_right And.right)).untold.brokenOff
      · obtain ⟨hloaded, hsame⟩ := hs.1 rfl
        have h := h.dull rfl hs (.inl hsame)
        cases loaded with
        | none => exact ⟨h.untold.brokenOff, anew h.untold⟩
        | some p =>
          change TakesUp _ _ _ _ (some p) _
          rw [TakesUp]
          split
          · next htarget => exact (h.takesUp (hsame.trans hloaded.symm) htarget).completed hcloned
          · exact ⟨h.untold.brokenOff, anew h.untold⟩
    · exact fun _ => h.untold.givenUp
  | false =>
    rw [if_neg (by decide)]
    have hafter : ∀ {a v'}, (progressMoves plan.checkout).noted v
        ⟨.clone plan.repository plan.checkout, a⟩ v' → Untold r v'.2 := by
      intro a v' hs stage hstage htold
      rw [hs.2, tells_append] at htold
      · exact h.untold stage hstage htold
      · intro e he message hlog
        rw [eq_of_mem_heard he] at hlog
        cases hlog
    refine ⟨h.untold.brokenOff, fun v' hs => (hafter hs).brokenOff, fun result v' hs => ?_⟩
    cases result with
    | error e => exact (hafter hs).givenUp (f := .acquisition e)
    | ok a =>
      change Tried _ _ _ (.ok a) v'
      rw [Tried]
      refine (hafter hs).reached (by decide) hcloned fun _ v' _ huntold => ?_
      exact ⟨huntold.brokenOff, anew huntold⟩

theorem Aware.pin (h : Aware found plan Stage.setups p r v) :
    Step.Holds (progressMoves plan.checkout).noted (BrokenOff found plan) (GivenUp found plan)
      (pin (.asked environment packages) plan p) (Aware found plan Stage.setups) r v := by
  have hpinned : Stage.pinned ∉ Stage.setups := by decide
  refine holds_pin (quiet_progressMoves plan.checkout).noted ⟨r, h.sincere⟩ (fun note _ => ?_)
    fun revision _ _ => ?_
  · exact h.reached (by decide) fun hset => absurd hset hpinned
  · exact h.advances (asks_checkout _ revision) rfl (by decide) hpinned

theorem Aware.sync (h : Aware found plan Stage.setups p r v) :
    Step.Holds (progressMoves plan.checkout).noted (BrokenOff found plan) (GivenUp found plan)
      (sync (.asked environment packages) plan p) (Aware found plan Stage.setups) r v := by
  have hsynced : Stage.synced ∉ Stage.setups := by decide
  refine holds_sync (quiet_progressMoves plan.checkout).noted ⟨r, h.sincere⟩ (fun note _ => ?_)
    fun _ _ => ?_
  · exact h.reached (by decide) fun hset => absurd hset hsynced
  · exact h.advances (asks_pull _) rfl (by decide) hsynced

/-- A setup step is skipped if the progress marks it, which is then warranted. -/
theorem Aware.provision {stage : Stage} (rest' : List Stage) {q : Question}
    {setup : Dialogue (Except ProvisionFailure Unit)} {wrap : ProvisionFailure → Failure}
    {name title : String} (h : Aware found plan rest p r v) {made : Except ProvisionFailure Unit → Exchange}
    (hop : Asks setup q made) (hq : q.isDull = true) (hplain : stage ∈ Stage.plain)
    (hstage : stage ∈ rest) (hrest : rest' ⊆ rest) (hnew : stage ∉ rest') :
    Step.Holds (progressMoves plan.checkout).noted (BrokenOff found plan) (GivenUp found plan)
      (provision (.asked environment packages) plan p ⟨name, setup⟩ stage wrap title)
      (Aware found plan rest') r v := by
  refine holds_provision (quiet_progressMoves plan.checkout).noted ⟨r, h.sincere⟩ (fun note hdone => ?_)
    fun _ => ?_
  · have hwarranted := h.marks stage hstage (List.contains_iff_mem.mp hdone)
    exact (h.weaken hrest).reached hplain fun _ _ => hwarranted
  · exact (h.weaken hrest).advances hop hq hplain hnew

theorem Aware.congr {r' : Report} (h : Aware found plan rest p r v) (hr : r'.stages = r.stages) :
    Aware found plan rest p r' v := by
  refine ⟨fun stage hstage htold => h.sincere stage hstage ?_, h.marks⟩
  refine htold.imp_left ?_
  rintro ⟨_, ⟨⟩, note, hmem⟩
  exact ⟨r, rfl, note, hr ▸ hmem⟩

theorem Aware.configure (h : Aware found plan [] p r v) :
    Step.Holds (progressMoves plan.checkout).noted (BrokenOff found plan) (GivenUp found plan)
      (configure (.asked environment packages) plan p)
      (fun _ r v => ∃ p, Aware found plan [] p r v) r v := by
  have hconfigured : Stage.configured ∉ Stage.setups := by decide
  have passed : ∀ {r v outcome note}, Aware found plan [] p r v →
      Reached (progressMoves plan.checkout).noted (BrokenOff found plan) .configured outcome note
        (Aware found plan [] p) r v :=
    fun h => h.reached (by decide) fun hset => absurd hset hconfigured
  refine holds_configure (quiet_progressMoves plan.checkout).noted (fun note _ => ?_) fun tool _ => ?_
  · exact (passed h).mono fun r v h => ⟨p, h.congr rfl⟩
  · refine h.keeps rfl fun result v h => ?_
    cases result with
    | ok changed =>
      rw [Applied]
      refine (passed h).mono fun r v h => ?_
      have hguided : Aware found plan [] p (guided plan (some tool) none r) v := h.congr rfl
      exact (hguided.completed List.not_mem_nil).mono fun p r v h => ⟨p, h⟩
    | error failure =>
      rw [Applied]
      split
      · exact ⟨⟨r, h.sincere⟩, fun note => (passed h).mono fun r v h => ⟨p, h.congr rfl⟩⟩
      · exact h.sincere

theorem Opening.stages (h : Opening found r v) :
    Step.Holds (progressMoves plan.checkout).noted (BrokenOff found plan) (GivenUp found plan)
      (stages (.asked environment packages) plan) (fun _ r v => ∃ p, Aware found plan [] p r v) r v := by
  refine holds_stages (quiet_progressMoves plan.checkout).noted (h.keeps rfl rfl fun result v h => ?_)
    (fun p r v h => Aware.pin environment packages h)
    (fun p r v h => Aware.sync environment packages h)
    (fun p r v title h => Aware.provision environment packages [.pkgsReady] h asks_setupEnvironment rfl
      (by decide) (by decide) (by decide) (by decide))
    (fun p r v title h => Aware.provision environment packages [] h asks_setupPackages rfl
      (by decide) (by decide) (by decide) (by decide))
    (fun p r v h => Aware.configure environment packages h)
  cases result with
  | ok a => exact h.acquire environment packages
  | error e => exact h.untold.givenUp (f := .acquisition e)

theorem keeps_sincere :
    (run (.asked environment packages) plan (.ofPlan plan)).Keeps (progressMoves plan.checkout).noted
      (BrokenOff found plan) (fun out v => Sincere found plan out.2 v.2) (found, []) := by
  have hopening : Opening found (.ofPlan plan) (found, []) := by
    refine ⟨.inl rfl, nofun, fun stage _ htold => ?_⟩
    rcases htold with ⟨_, ⟨⟩, note, hmem⟩ | ⟨_, hmem⟩
    · cases hmem
    · cases hmem
  refine keeps_run (Keeps.mono (hopening.stages environment packages) fun out v h => ?_)
  obtain ⟨result, r⟩ := out
  cases result with
  | error f =>
    intro stage hstage htold
    refine h stage hstage (htold.imp_left ?_)
    rintro ⟨_, ⟨⟩, note, hmem⟩
    exact ⟨r, rfl, note, hmem⟩
  | ok a =>
    obtain ⟨p, h⟩ := h
    refine h.keeps rfl fun head v h => ?_
    have hhead : Aware found plan [] p { r with head } v := h.congr rfl
    have hdone : Reached (progressMoves plan.checkout).noted (BrokenOff found plan) .done .ran none
        (Aware found plan [] p) { r with head } v :=
      hhead.reached (by decide) fun _ hran => nomatch hran
    exact hdone.mono fun r v h => h.sincere

end

/-- A run skips a setup step only on the word of the record that it found, and in a checkout that it found. -/
theorem skipped_was_loaded {environment packages : String} {plan : Plan} {found kept : Option Progress}
    {es : List Exchange} {result : Option (Except Failure Unit × Report)} {stage : Stage}
    (course : (run (.asked environment packages) plan (.ofPlan plan)).Plays (progressMoves plan.checkout)
      found es result kept)
    (hstage : stage ∈ Stage.setups) (hskipped : Tells stage .skipped (result.map Prod.snd) es) :
    (∃ p, found = some p ∧ p.target = plan.targetLabel ∧ stage ∈ p.completed) ∧
      ∀ e ∈ es, e.isClone = false := by
  have hwarranted : Warranted found plan stage (es.filter Exchange.isHeard) := by
    have hended := (keeps_sincere environment packages).plays (course.noted [])
    rw [List.nil_append] at hended
    have hline : (∃ report, .log .debug (transition report stage .skipped) ∈ es.map Exchange.question) →
        ∃ report, .log .debug (transition report stage .skipped) ∈
          (es.filter Exchange.isHeard).map Exchange.question := by
      rintro ⟨report, hmem⟩
      obtain ⟨e, he, hq⟩ := List.mem_map.mp hmem
      refine ⟨report, List.mem_map.mpr ⟨e, List.mem_filter.mpr ⟨he, ?_⟩, hq⟩⟩
      rw [Exchange.isHeard, hq]
      rfl
    cases result with
    | none =>
      obtain ⟨r, hsincere⟩ := hended
      refine hsincere stage hstage (.inr (hline (hskipped.resolve_left ?_)))
      rintro ⟨_, ⟨⟩, _⟩
    | some out => exact hended stage hstage (hskipped.imp_right hline)
  exact ⟨hwarranted.1, bare_of_heard hwarranted.2⟩

end Bringup

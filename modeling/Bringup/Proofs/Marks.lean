import Bringup.Proofs.History
import Bringup.Proofs.StageOrder

/-!
# The marks of a record

A record marks stages as completed for a target, and a later run takes its word for it. `Vouches` says
when a meaning of such marks survives a run: the work of a stage earns its mark, and spares those of the
other stages as long as the target is the same. `keeps_honest`: then a run leaves an honest record wherever
it ends, as it stores its own target before it does any work.
-/

namespace Bringup

set_option autoImplicit false

open Procedure Dialogue

/-- An operation that changes what is in a checkout. -/
def Question.isWork : Question → Bool
  | checkout _ _ => true
  | pull _ => true
  | setupEnvironment => true
  | setupPackages => true
  | _ => false

/-- A question that has nothing to do with the record. -/
def Question.isApart : Question → Bool
  | load _ => false
  | store _ _ => false
  | clone _ _ => false
  | _ => true

/-- A question for a new checkout. -/
def Question.isClone : Question → Bool
  | clone _ _ => true
  | _ => false

/-- The work that a plan asks for in a stage. -/
def Stage.work? (plan : Plan) : Stage → Option Question
  | pinned => (pinnedRevision plan).map (.checkout plan.checkout)
  | synced => if plan.syncPolicy = .pinned then none else some (.pull plan.checkout)
  | envReady => some .setupEnvironment
  | pkgsReady => some .setupPackages
  | _ => none

theorem Stage.isWork_of_work {plan : Plan} {stage : Stage} {q : Question}
    (h : stage.work? plan = some q) : q.isWork = true := by
  cases stage <;> simp [Stage.work?] at h
  case pinned =>
    obtain ⟨revision, _, rfl⟩ := h
    rfl
  case synced =>
    obtain ⟨_, rfl⟩ := h
    rfl
  all_goals
    subst h
    rfl

theorem Question.isApart_of_isWork {q : Question} (h : q.isWork = true) : q.isApart = true := by
  cases q <;> first | rfl | cases h

theorem spared_of_isApart {checkout : Path} {kept kept' : Option Progress} {e : Exchange}
    (he : e.question.isApart = true) (h : progressMoves checkout kept e kept') :
    kept' = kept ∨ kept' = none := by
  obtain ⟨q, a⟩ := e
  cases q with
  | load _ => cases he
  | store _ _ => cases he
  | clone _ _ => cases he
  | _ => exact h.imp_right And.right

namespace Progress

theorem target_mark (p : Progress) (stage : Stage) (t : Instant) : (p.mark stage t).target = p.target := rfl

theorem mem_mark {p : Progress} {stage other : Stage} {t : Instant} :
    other ∈ (p.mark stage t).completed ↔ other ∈ p.completed ∨ other = stage := by
  rw [mark]
  split
  · next hdone =>
    refine ⟨.inl, fun h => h.elim id ?_⟩
    rintro rfl
    exact List.contains_iff_mem.mp hdone
  · rw [List.mem_append, List.mem_singleton]

theorem not_mem_of_isComplete {p : Progress} {stage : Stage} (h : p.isComplete stage = false) :
    stage ∉ p.completed := by
  rw [← List.contains_iff_mem]
  exact Bool.eq_false_iff.mp h

end Progress

section Marks

variable {σ : Type} (good : σ → String → Stage → Prop)

/-- Every mark of the progress is good. -/
def Progress.Good (s : σ) (p : Progress) : Prop := ∀ stage ∈ p.completed, good s p.target stage

/-- Every mark of the record is good. -/
def Honest (v : Option Progress × σ) : Prop := ∀ p, v.1 = some p → p.Good good v.2

/-- The record is as it was or gone, and what was good still is. -/
def Lasts (v v' : Option Progress × σ) : Prop :=
  (v'.1 = v.1 ∨ v'.1 = none) ∧ ∀ target stage, good v.2 target stage → good v'.2 target stage

/-- Surroundings in which a mark stays good until there is work for another target. -/
structure Vouches (w : Surroundings (Option Progress × σ)) (plan : Plan) : Prop where
  quiet : w.Quiet
  moves : ∀ {v e v'}, w v e v' → progressMoves plan.checkout v.1 e v'.1
  idle : ∀ {v e v'}, w v e v' → e.question.isWork = false → e.question.isClone = false →
    ∀ target stage, good v.2 target stage → good v'.2 target stage
  /-- A checkout that could not be made is the old one, or has no record. -/
  refused : ∀ {v v' url dest e}, w v ⟨.clone url dest, some (.error e)⟩ v' →
    v'.1 = none ∨ ∀ target stage, good v.2 target stage → good v'.2 target stage
  work : ∀ {stage v e v'}, stage.work? plan = some e.question → w v e v' →
    ∀ other ≠ stage, good v.2 plan.targetLabel other → good v'.2 plan.targetLabel other
  earned : ∀ {stage v e v'}, stage.work? plan = some e.question → stage.call? plan = some e → w v e v' →
    good v'.2 plan.targetLabel stage
  /-- Stages without work are marked without more ado. -/
  free : ∀ s target, good s target .cloned ∧ good s target .configured

end Marks

section

variable {σ : Type} {good : σ → String → Stage → Prop} {w : Surroundings (Option Progress × σ)}
  {plan : Plan} {v v' : Option Progress × σ} {p : Progress} {n : Nat} {r : Report}

theorem Honest.of_record {kept : Option Progress} {s : σ} (h : Honest good (kept, s)) (hp : kept = some p) :
    p.Good good s := h p hp

theorem Honest.lasts (h : Honest good v) (hv : Lasts good v v') : Honest good v' := by
  intro p hp stage hstage
  rcases hv.1 with hsame | hnone
  · exact hv.2 _ _ (h p (hsame ▸ hp) stage hstage)
  · rw [hnone] at hp
    cases hp

theorem honest_of_none (h : v.1 = none) : Honest good v := by
  intro p hp
  rw [h] at hp
  cases hp

theorem honest_of_stored (hgood : p.Good good v.2) (h : Stored p v.1) : Honest good v := by
  rcases h with hnone | ⟨t, hp⟩
  · exact honest_of_none hnone
  · intro q hq
    rw [hp, Option.some.injEq] at hq
    rw [← hq]
    exact hgood

theorem Stored.lasts (h : Stored p v.1) (hv : v'.1 = v.1 ∨ v'.1 = none) : Stored p v'.1 := by
  rcases hv with hsame | hnone
  · rw [hsame]
    exact h
  · exact .inl hnone

theorem Stage.mem_take_succ {stage other : Stage} (hn : Stage.sequence[n]? = some stage) :
    other ∈ Stage.sequence.take (n + 1) ↔ other ∈ Stage.sequence.take n ∨ other = stage := by
  rw [List.take_add_one, hn, Option.toList_some, List.mem_append, List.mem_singleton]

/-- A run has its progress in hand: the first `n` stages that the plan asks work for are marked. -/
structure InHand (good : σ → String → Stage → Prop) (plan : Plan) (n : Nat) (p : Progress)
    (v : Option Progress × σ) : Prop where
  target : p.target = plan.targetLabel
  good : p.Good good v.2
  marked : ∀ stage ∈ Stage.sequence.take n, (stage.work? plan).isSome → stage ∈ p.completed
  stored : Stored p v.1

theorem InHand.honest (h : InHand good plan n p v) : Honest good v := honest_of_stored h.good h.stored

theorem InHand.lasts (h : InHand good plan n p v) (hv : Lasts good v v') : InHand good plan n p v' :=
  ⟨h.target, fun stage hstage => hv.2 _ _ (h.good stage hstage), h.marked, h.stored.lasts hv.1⟩

/-- A stage is passed by if there is no work in it or it is marked. -/
theorem InHand.skip (h : InHand good plan n p v) {stage : Stage} (hn : Stage.sequence[n]? = some stage)
    (hskip : (stage.work? plan).isSome → stage ∈ p.completed) : InHand good plan (n + 1) p v := by
  refine ⟨h.target, h.good, fun other hother => ?_, h.stored⟩
  rcases (Stage.mem_take_succ hn).mp hother with hother | rfl
  · exact h.marked other hother
  · exact hskip

variable (hw : Vouches good w plan)

include hw

theorem Vouches.lasts {q : Question} {a : Option q.Answer} (hq : q.isApart = true)
    (hwork : q.isWork = false) (h : w v ⟨q, a⟩ v') : Lasts good v v' := by
  refine ⟨spared_of_isApart hq (hw.moves h), hw.idle h hwork ?_⟩
  cases q with
  | clone _ _ => cases hq
  | _ => rfl

theorem Vouches.keeps_idle {q : Question} {Q : q.Answer → Option Progress × σ → Prop}
    (hq : q.isApart = true) (hwork : q.isWork = false) (hv : Honest good v)
    (h : ∀ a v', Lasts good v v' → Q a v') : (ask q ends).Keeps w (Honest good) Q v :=
  ⟨fun _ hs => hv.lasts (hw.lasts hq hwork hs), fun a v' hs => h a v' (hw.lasts hq hwork hs)⟩

theorem Vouches.reached {stage : Stage} {outcome : Outcome} {note : Option String}
    {Q : Report → Option Progress × σ → Prop} (hv : Honest good v)
    (h : ∀ v', Lasts good v v' → Q (r.record stage outcome note) v') :
    Reached w (Honest good) stage outcome note Q r v :=
  hw.keeps_idle rfl rfl hv fun _ => h

theorem Vouches.completed {stage : Stage} (htarget : p.target = plan.targetLabel) (hp : p.Good good v.2)
    (hv : Honest good v) (hstage : good v.2 plan.targetLabel stage)
    (hmarked : ∀ other ∈ Stage.sequence.take n, (other.work? plan).isSome →
      other ∈ p.completed ∨ other = stage) :
    Completed w (Honest good) (fun _ _ => Honest good) plan p stage
      (fun p _ v => InHand good plan n p v) r v := by
  refine ⟨hv, fun t _ => ?_⟩
  have hmark : ∀ {v' a}, w v ⟨.store plan.checkout (p.mark stage t), a⟩ v' →
      (p.mark stage t).Good good v'.2 := by
    intro v' a hs other hother
    refine hw.idle hs rfl rfl _ _ ?_
    rw [Progress.target_mark]
    rcases Progress.mem_mark.mp hother with hmem | rfl
    · exact hp other hmem
    · exact htarget ▸ hstage
  -- Whether it failed or was broken off, storing has left the old record, the new one or none.
  have hcut : ∀ {v' a}, w v ⟨.store plan.checkout (p.mark stage t), a⟩ v' →
      v'.1 = v.1 ∨ Stored (p.mark stage t) v'.1 → Honest good v' := by
    intro v' a hs hcut
    rcases hcut with hsame | hstored
    · exact hv.lasts ⟨.inl hsame, hw.idle hs rfl rfl⟩
    · exact honest_of_stored (hmark hs) hstored
  refine ⟨fun v' hs => hcut hs (hw.moves hs rfl), fun result v' hs => ?_⟩
  cases result with
  | error e => exact hcut hs (hw.moves hs rfl)
  | ok a =>
    refine ⟨(Progress.target_mark ..).trans htarget, hmark hs, fun other hother hasked => ?_, hw.moves hs rfl⟩
    exact Progress.mem_mark.mpr (hmarked other hother hasked)

theorem InHand.work (h : InHand good plan n p v) {stage : Stage} {e : Exchange}
    (hwork : stage.work? plan = some e.question) (hnew : stage ∉ p.completed) (hs : w v e v') :
    InHand good plan n p v' := by
  have hspared := spared_of_isApart (Question.isApart_of_isWork (Stage.isWork_of_work hwork)) (hw.moves hs)
  refine ⟨h.target, fun other hother => ?_, h.marked, h.stored.lasts hspared⟩
  -- Work may undo the mark of its own stage only, which is not set.
  have hne : other ≠ stage := fun heq => hnew (heq ▸ hother)
  rw [h.target]
  exact hw.work hwork hs other hne (h.target ▸ h.good other hother)

theorem InHand.advances {ε : Type} (h : InHand good plan n p v) {stage : Stage} {q : Question}
    {op : Dialogue (Except ε Unit)} {wrap : ε → Failure} {made : Except ε Unit → Exchange}
    (hop : Asks op q made) (hn : Stage.sequence[n]? = some stage) (hwork : stage.work? plan = some q)
    (hcall : stage.call? plan = some (made (.ok ()))) (hnew : p.isComplete stage = false) :
    Advances w (Honest good) (fun _ _ => Honest good) plan p stage op wrap
      (fun p _ v => InHand good plan (n + 1) p v) r v := by
  have hnew := Progress.not_mem_of_isComplete hnew
  have hafter : ∀ {result v'}, w v (made result) v' → InHand good plan n p v' := by
    intro result v' hs
    exact h.work hw (by rw [hop.question, hwork]) hnew hs
  refine hop.advances (fun v' hs => (h.work hw hwork hnew hs).honest) (fun e v' hs => (hafter hs).honest) ?_
  intro v' hs
  have hearned := hw.earned (by rw [hop.question, hwork]) hcall hs
  refine hw.reached (hafter hs).honest fun v' hlasts => ?_
  have hlater := (hafter hs).lasts hlasts
  refine hw.completed hlater.target hlater.good hlater.honest (hlasts.2 _ _ hearned) ?_
  intro other hother hasked
  exact ((Stage.mem_take_succ hn).mp hother).imp_left fun hother => h.marked other hother hasked

variable (environment packages : String)

/-- A checkout is made or taken over. What was loaded is as good as the record. -/
theorem Vouches.acquire (hv : Honest good v) :
    Step.Holds w (Honest good) (fun _ _ => Honest good) (acquire (.asked environment packages) plan)
      (fun p r v => Completed w (Honest good) (fun _ _ => Honest good) plan p .cloned
        (fun p _ v => InHand good plan 1 p v) r v) r v := by
  have taken : ∀ {p r v}, p.target = plan.targetLabel → p.Good good v.2 → Honest good v →
      Completed w (Honest good) (fun _ _ => Honest good) plan p .cloned
        (fun p _ v => InHand good plan 1 p v) r v := by
    intro p r v htarget hp hv
    refine hw.completed htarget hp hv (hw.free _ _).1 fun other hother _ => ?_
    exact .inr (List.mem_singleton.mp hother)
  -- A record of another target stays where it is until the stage `cloned` is stored over it.
  have anew : ∀ {r v t}, Honest good v →
      Completed w (Honest good) (fun _ _ => Honest good) plan (.fresh plan.targetLabel t) .cloned
        (fun p _ v => InHand good plan 1 p v) r v :=
    fun hv => taken rfl (fun stage hstage => by cases hstage) hv
  refine holds_acquire hw.quiet (hw.keeps_idle rfl rfl hv fun there v hlasts => ?_)
  have hv := hv.lasts hlasts
  cases there with
  | true =>
    rw [if_pos rfl, Resumes]
    split
    · exact fun _ => hv
    refine hw.keeps_idle rfl rfl hv fun isTree v hlasts => ?_
    have hv := hv.lasts hlasts
    split
    · refine ⟨hv, hw.reached hv fun v hlasts => ?_⟩
      have hv := hv.lasts hlasts
      refine ⟨fun v' hs => ?_, fun loaded v' hs => ?_⟩
      · exact hv.lasts ⟨(hw.moves hs).imp_right And.right, hw.idle hs rfl rfl⟩
      · obtain ⟨hloaded, hsame⟩ := hw.moves hs rfl
        have hv := hv.lasts ⟨.inl hsame, hw.idle hs rfl rfl⟩
        cases loaded with
        | none => exact ⟨hv, fun t => anew hv⟩
        | some p =>
          change TakesUp _ _ _ _ (some p) _
          rw [TakesUp]
          split
          · next htarget => exact taken htarget (hv p (hsame.trans hloaded.symm)) hv
          · exact ⟨hv, fun t => anew hv⟩
    · exact fun _ => hv
  | false =>
    rw [if_neg (by decide)]
    refine ⟨hv, fun v' hs => honest_of_none (hw.moves hs), fun result v' hs => ?_⟩
    cases result with
    | ok a =>
      have hnone : v'.1 = none := hw.moves hs
      change Tried _ _ _ (.ok a) v'
      rw [Tried]
      refine hw.reached (honest_of_none hnone) fun v hlasts => ?_
      have hv := (honest_of_none hnone).lasts hlasts
      exact ⟨hv, fun t => anew hv⟩
    | error e =>
      change Honest good v'
      rcases hw.refused hs with hnone | hgood
      · exact honest_of_none hnone
      · exact hv.lasts ⟨hw.moves hs, hgood⟩

theorem InHand.pin (h : InHand good plan 1 p v) :
    Step.Holds w (Honest good) (fun _ _ => Honest good) (pin (.asked environment packages) plan p)
      (fun p _ v => InHand good plan 2 p v) r v := by
  refine holds_pin hw.quiet h.honest (fun note hskip => ?_) fun revision hrev hnew => ?_
  · refine hw.reached h.honest fun v hlasts => (h.lasts hlasts).skip rfl fun hwork => ?_
    rcases hskip with hnone | hdone
    · simp [Stage.work?, hnone] at hwork
    · exact List.contains_iff_mem.mp hdone
  · refine h.advances hw (asks_checkout _ revision) rfl ?_ ?_ hnew
    · rw [Stage.work?, hrev]
      rfl
    · rw [Stage.call?, hrev]
      rfl

theorem InHand.sync (h : InHand good plan 2 p v) :
    Step.Holds w (Honest good) (fun _ _ => Honest good) (sync (.asked environment packages) plan p)
      (fun p _ v => InHand good plan 3 p v) r v := by
  refine holds_sync hw.quiet h.honest (fun note hskip => ?_) fun hpolicy hnew => ?_
  · refine hw.reached h.honest fun v hlasts => (h.lasts hlasts).skip rfl fun hwork => ?_
    rcases hskip with hpolicy | hdone
    · simp [Stage.work?, hpolicy] at hwork
    · exact List.contains_iff_mem.mp hdone
  · refine h.advances hw (asks_pull _) rfl ?_ rfl hnew
    rw [Stage.work?, if_neg hpolicy]

theorem InHand.provision {stage : Stage} {q : Question} {setup : Dialogue (Except ProvisionFailure Unit)}
    {wrap : ProvisionFailure → Failure} {name title : String} (h : InHand good plan n p v)
    {made : Except ProvisionFailure Unit → Exchange} (hop : Asks setup q made)
    (hn : Stage.sequence[n]? = some stage) (hwork : stage.work? plan = some q)
    (hcall : stage.call? plan = some (made (.ok ()))) :
    Step.Holds w (Honest good) (fun _ _ => Honest good)
      (provision (.asked environment packages) plan p ⟨name, setup⟩ stage wrap title)
      (fun p _ v => InHand good plan (n + 1) p v) r v := by
  refine holds_provision hw.quiet h.honest (fun note hdone => ?_) fun hnew => ?_
  · refine hw.reached h.honest fun v hlasts => (h.lasts hlasts).skip hn fun _ => ?_
    exact List.contains_iff_mem.mp hdone
  · exact h.advances hw hop hn hwork hcall hnew

theorem InHand.configure (h : InHand good plan 5 p v) :
    Step.Holds w (Honest good) (fun _ _ => Honest good) (configure (.asked environment packages) plan p)
      (fun _ _ v => ∃ p, InHand good plan 5 p v) r v := by
  refine holds_configure hw.quiet (fun note _ => ?_) fun tool _ => ?_
  · exact hw.reached h.honest fun v hlasts => ⟨p, h.lasts hlasts⟩
  · refine hw.keeps_idle rfl rfl h.honest fun result v hlasts => ?_
    have h := h.lasts hlasts
    cases result with
    | ok changed =>
      change Applied _ _ _ _ _ _ _ _ (.ok changed) _
      rw [Applied]
      refine hw.reached h.honest fun v hlasts => ?_
      have h := h.lasts hlasts
      have hconfigured := (hw.free v.2 plan.targetLabel).2
      have hmarked : ∀ other ∈ Stage.sequence.take 5, (other.work? plan).isSome →
          other ∈ p.completed ∨ other = .configured :=
        fun other hother hasked => .inl (h.marked other hother hasked)
      exact (hw.completed h.target h.good h.honest hconfigured hmarked).mono fun p r v h => ⟨p, h⟩
    | error failure =>
      change Applied _ _ _ _ _ _ _ _ (.error failure) _
      rw [Applied]
      split
      · exact ⟨h.honest, fun note => hw.reached h.honest fun v hlasts => ⟨p, h.lasts hlasts⟩⟩
      · exact h.honest

theorem Vouches.stages (hv : Honest good v) :
    Step.Holds w (Honest good) (fun _ _ => Honest good) (stages (.asked environment packages) plan)
      (fun _ _ v => ∃ p, InHand good plan 5 p v) r v := by
  refine holds_stages hw.quiet (hw.keeps_idle rfl rfl hv fun result v hlasts => ?_)
    (fun p r v h => InHand.pin hw environment packages h)
    (fun p r v h => InHand.sync hw environment packages h)
    (fun p r v title h => InHand.provision hw environment packages h asks_setupEnvironment rfl rfl rfl)
    (fun p r v title h => InHand.provision hw environment packages h asks_setupPackages rfl rfl rfl)
    (fun p r v h => InHand.configure hw environment packages h)
  cases result with
  | ok a => exact hw.acquire environment packages (hv.lasts hlasts)
  | error e => exact hv.lasts hlasts

/-- A run leaves an honest record wherever it ends. If it comes to its last stage, all that its plan asks
for is good. -/
theorem Vouches.keeps_honest (hv : Honest good v) :
    (run (.asked environment packages) plan r).Keeps w (Honest good)
      (fun out v => Honest good v ∧ (out.2.stage = .done → ∀ stage, (stage.work? plan).isSome →
        good v.2 plan.targetLabel stage)) v := by
  refine keeps_run (Keeps.mono (hw.stages environment packages hv) fun out v h => ?_)
  obtain ⟨result, r⟩ := out
  cases result with
  | error f => exact ⟨h, nofun⟩
  | ok a =>
    obtain ⟨p, h⟩ := h
    refine hw.keeps_idle rfl rfl h.honest fun head v hlasts => ?_
    have h := h.lasts hlasts
    refine hw.keeps_idle rfl rfl h.honest fun _ v hlasts => ?_
    have h := h.lasts hlasts
    refine ⟨h.honest, fun _ stage hasked => ?_⟩
    have hin : stage ∈ Stage.sequence.take 5 := by
      cases stage <;> simp_all [Stage.work?, Stage.sequence]
    exact h.target ▸ h.good stage (h.marked stage hin hasked)

end

end Bringup

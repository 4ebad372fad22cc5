import Bringup.Proofs.Grounds
import Bringup.Proofs.Marks
import Bringup.Proofs.Target

/-!
# Runs that go on from each other

Runs of one plan, each of which may fail anywhere, share nothing but the record in the checkout. On a host
that can be relied on they still do everything once.

* `Plan.itinerary`: the stages that a plan leads through. A record always holds a beginning of them.
* `Ledger`: the stages in the record are those that it held before and those that were carried out since.
* `Held`: what a run knows between two stages. `Settled.keeps_run`: what it leaves wherever it ends.
* `progress_exactly_once`: what follows for any number of runs.
-/

namespace Bringup

set_option autoImplicit false

open Procedure Dialogue

/-! ## Stages and operations -/

/-- The stage that an operation carries out. -/
def Question.task? : Question → Option Stage
  | clone _ _ => some .cloned
  | checkout _ _ => some .pinned
  | pull _ => some .synced
  | setupEnvironment => some .envReady
  | setupPackages => some .pkgsReady
  | _ => none

/-- The stage that an operation has carried out, if it returned without a failure. -/
def Exchange.done? : Exchange → Option Stage
  | ⟨.clone _ _, some (.ok _)⟩ => some .cloned
  | ⟨.checkout _ _, some (.ok _)⟩ => some .pinned
  | ⟨.pull _, some (.ok _)⟩ => some .synced
  | ⟨.setupEnvironment, some (.ok _)⟩ => some .envReady
  | ⟨.setupPackages, some (.ok _)⟩ => some .pkgsReady
  | _ => none

theorem Exchange.done?_of_task {e : Exchange} (h : e.question.task? = none) : e.done? = none := by
  obtain ⟨q, a⟩ := e
  cases q with
  | clone _ _ => cases h
  | checkout _ _ => cases h
  | pull _ => cases h
  | setupEnvironment => cases h
  | setupPackages => cases h
  | _ => rfl

theorem Exchange.isHeard_of_task {e : Exchange} {stage : Stage} (h : e.question.task? = some stage) :
    e.isHeard = true := by
  obtain ⟨q, a⟩ := e
  cases q with
  | now => cases h
  | banner _ => cases h
  | log _ _ => cases h
  | _ => rfl

theorem filterMap_heard (es : List Exchange) :
    (es.filter Exchange.isHeard).filterMap Exchange.done? = es.filterMap Exchange.done? := by
  rw [List.filterMap_filter]
  refine congrArg (List.filterMap · es) (funext fun e => ?_)
  split
  · rfl
  · next hquiet =>
    cases htask : e.question.task? with
    | none => exact (Exchange.done?_of_task htask).symm
    | some stage => exact absurd (Exchange.isHeard_of_task htask) hquiet

namespace Plan

variable (plan : Plan)

/-- The plan leads through a stage. -/
def isDue : Stage → Bool
  | .pinned => plan.syncPolicy ≠ .latest
  | .synced => plan.syncPolicy ≠ .pinned
  | _ => true

def itinerary : List Stage := Stage.sequence.filter plan.isDue

/-- Those of them that come before the `n`th stage of all. -/
def dueBefore (n : Nat) : List Stage := (Stage.sequence.take n).filter plan.isDue

variable {n : Nat} {stage : Stage}

theorem nodup_itinerary : plan.itinerary.Nodup := by
  have hsequence : Stage.sequence.Nodup := by decide
  exact hsequence.filter _

theorem dueBefore_succ (hn : Stage.sequence[n]? = some stage) :
    plan.dueBefore (n + 1) = plan.dueBefore n ++ if plan.isDue stage then [stage] else [] := by
  rw [dueBefore, List.take_add_one, hn, List.filter_append, dueBefore]
  cases hdue : plan.isDue stage <;> simp [hdue]

variable {plan}

theorem dueBefore_of_isDue (hn : Stage.sequence[n]? = some stage) (hdue : plan.isDue stage = true) :
    plan.dueBefore (n + 1) = plan.dueBefore n ++ [stage] := by
  rw [plan.dueBefore_succ hn, if_pos hdue]

theorem itinerary_eq (hn : Stage.sequence[n]? = some stage) (hdue : plan.isDue stage = true) :
    plan.itinerary = plan.dueBefore n ++ stage :: (Stage.sequence.drop (n + 1)).filter plan.isDue := by
  have hsplit := List.take_append_drop (n + 1) Stage.sequence
  rw [itinerary, ← hsplit, List.filter_append]
  change plan.dueBefore (n + 1) ++ _ = _
  rw [dueBefore_of_isDue hn hdue, hsplit, List.append_assoc, List.singleton_append]

theorem mem_itinerary (hn : Stage.sequence[n]? = some stage) (hdue : plan.isDue stage = true) :
    stage ∈ plan.itinerary := by
  rw [itinerary_eq hn hdue]
  exact List.mem_append_right _ List.mem_cons_self

end Plan

theorem prefix_cases {α : Type} {a b c : List α} {x : α} (hc : c <+: a ++ x :: b) (ha : a <+: c) :
    c = a ∨ a ++ [x] <+: c := by
  obtain ⟨d, rfl⟩ := ha
  rw [List.prefix_append_right_inj] at hc
  cases d with
  | nil => exact .inl (List.append_nil a)
  | cons y d =>
    obtain ⟨rfl, _⟩ := List.cons_prefix_cons.mp hc
    refine .inr ?_
    rw [List.prefix_append_right_inj]
    exact List.cons_prefix_cons.mpr ⟨rfl, List.nil_prefix⟩

/-! ## What is recorded and what was carried out -/

/-- Stages that are carried out by an operation of source control or a setup step. -/
def worked (stages : List Stage) : List Stage := stages.filter (· ≠ .configured)

/-- A run has found the stages `before` in the record and brought them to `now`. What it has added are the
stages that it has carried out, and it has asked for nothing but what was still to be done. -/
structure Ledger (plan : Plan) (before now : List Stage) (l : List Exchange) : Prop where
  grown : before <+: now
  worked : worked now = worked before ++ l.filterMap Exchange.done?
  asked : ∀ e ∈ l, ∀ stage, e.question.task? = some stage → stage ∈ plan.itinerary ∧ stage ∉ before

section

variable {plan : Plan} {before now later : List Stage} {l l' : List Exchange} {e : Exchange} {stage : Stage}

theorem Question.task?_ne_configured (q : Question) : q.task? ≠ some .configured := by
  cases q <;> nofun

theorem ledger_nil (plan : Plan) (before : List Stage) : Ledger plan before before [] :=
  ⟨List.prefix_refl _, (List.append_nil _).symm, nofun⟩

theorem Ledger.append (h : Ledger plan before now l) (h' : Ledger plan now later l') :
    Ledger plan before later (l ++ l') := by
  refine ⟨h.grown.trans h'.grown, ?_, fun e he stage hstage => ?_⟩
  · rw [h'.worked, h.worked, List.filterMap_append, List.append_assoc]
  · rcases List.mem_append.mp he with hold | hnew
    · exact h.asked e hold stage hstage
    · obtain ⟨hdue, hmem⟩ := h'.asked e hnew stage hstage
      exact ⟨hdue, fun hbefore => hmem (h.grown.subset hbefore)⟩

theorem Ledger.ne_nil (h : Ledger plan before now l) (hne : before ≠ []) : now ≠ [] := by
  rintro rfl
  exact hne (List.prefix_nil.mp h.grown)

theorem Ledger.of_heard (h : Ledger plan before now (l.filter Exchange.isHeard)) :
    Ledger plan before now l := by
  refine ⟨h.grown, ?_, fun e he stage hstage => h.asked e ?_ stage hstage⟩
  · rw [h.worked, filterMap_heard]
  · exact List.mem_filter.mpr ⟨he, Exchange.isHeard_of_task hstage⟩

theorem Ledger.note (h : Ledger plan before now l) (hnone : e.done? = none)
    (hasked : ∀ stage, e.question.task? = some stage → stage ∈ plan.itinerary ∧ stage ∉ now) :
    Ledger plan before now (l ++ [e].filter Exchange.isHeard) := by
  refine h.append ⟨List.prefix_refl _, ?_, fun e' he' stage hstage => ?_⟩
  · rw [filterMap_heard]
    simp [hnone]
  · rw [eq_of_mem_heard he'] at hstage
    exact hasked stage hstage

theorem Ledger.idle (h : Ledger plan before now l) (he : e.question.task? = none) :
    Ledger plan before now (l ++ [e].filter Exchange.isHeard) := by
  refine h.note (Exchange.done?_of_task he) fun stage hstage => ?_
  rw [he] at hstage
  cases hstage

theorem Ledger.carriedOut (h : Ledger plan before now l) (htask : e.question.task? = some stage)
    (hdone : e.done? = some stage) (hdue : stage ∈ plan.itinerary) (hnew : stage ∉ now) :
    Ledger plan before (now ++ [stage]) (l ++ [e].filter Exchange.isHeard) := by
  have hne : stage ≠ .configured := fun heq => e.question.task?_ne_configured (heq ▸ htask)
  refine h.append ⟨List.prefix_append .., ?_, fun e' he' other hother => ?_⟩
  · rw [filterMap_heard, Bringup.worked, List.filter_append]
    simp [hne, hdone, Bringup.worked]
  · rw [eq_of_mem_heard he', htask, Option.some.injEq] at hother
    exact hother ▸ ⟨hdue, hnew⟩

/-- The last stage is carried out by no operation. -/
theorem Ledger.configured (h : Ledger plan before now l) : Ledger plan before (now ++ [.configured]) l := by
  refine ⟨h.grown.trans (List.prefix_append ..), ?_, h.asked⟩
  rw [Bringup.worked, List.filter_append, ← h.worked]
  simp [Bringup.worked]

end

/-! ## One run -/

theorem Grounds.still {checkout : Path} {s s' : Grounds} {q : Question} {a : Option q.Answer}
    (hq : q.isApart = true) (h : Grounds.moves checkout s ⟨q, a⟩ s') : s' = s := by
  cases a with
  | none => cases q <;> cases h
  | some a =>
    cases q with
    | load _ => cases hq
    | store _ _ => cases hq
    | clone _ _ => cases hq
    | present _ => exact h.1
    | isWorkTree _ => exact h.1
    | now => exact h.1
    | _ => exact h

section

variable (plan : Plan)

/-- Either there is no checkout and nothing has been done, or the record holds what has been done: a
beginning of the itinerary. -/
def Standing (now : List Stage) (s : Grounds) : Prop :=
  now = [] ∧ s.there = false ∨
    now ≠ [] ∧ now <+: plan.itinerary ∧ ∃ t, s = ⟨true, true, some ⟨plan.targetLabel, now, t⟩⟩

variable (before : List Stage)

/-- Where a run may end that has found the stages `before`. -/
def Settled (now : List Stage) (v : Grounds × List Exchange) : Prop :=
  Standing plan now v.1 ∧ Ledger plan before now v.2

/-- Where a run fails. If it got past the first stage, there is a record. -/
def Abandoned (_ : Failure) (r : Report) (v : Grounds × List Exchange) : Prop :=
  ∃ now, Settled plan before now v ∧ ((∃ record ∈ r.stages, record.stage = .cloned) → now ≠ [])

/-- A run has the progress in hand that the record holds. It has passed the first `n` stages. -/
structure Held (n : Nat) (p : Progress) (v : Grounds × List Exchange) : Prop where
  target : p.target = plan.targetLabel
  grounds : v.1 = ⟨true, true, some p⟩
  within : p.completed <+: plan.itinerary
  reached : plan.dueBefore n <+: p.completed
  begun : p.completed ≠ []
  ledger : Ledger plan before p.completed v.2

end

/-- The stages of a progress with one more of them completed. -/
def Progress.marked (p : Progress) (stage : Stage) : List Stage :=
  if p.isComplete stage then p.completed else p.completed ++ [stage]

/-- A stage has been carried out and is about to be stored. -/
structure Pending (plan : Plan) (before : List Stage) (n : Nat) (p : Progress) (stage : Stage)
    (v : Grounds × List Exchange) : Prop where
  target : p.target = plan.targetLabel
  there : v.1.there = true
  controlled : v.1.controlled = true
  within : p.marked stage <+: plan.itinerary
  reached : plan.dueBefore n <+: p.marked stage
  ledger : Ledger plan before (p.marked stage) v.2

section

variable {plan : Plan} {before : List Stage} {n : Nat} {p : Progress} {stage : Stage} {r : Report}
  {v v' : Grounds × List Exchange}

theorem Progress.marked_of_mem (h : stage ∈ p.completed) : p.marked stage = p.completed :=
  if_pos (List.contains_iff_mem.mpr h)

theorem Progress.marked_of_not_mem (h : stage ∉ p.completed) : p.marked stage = p.completed ++ [stage] :=
  if_neg fun hdone => h (List.contains_iff_mem.mp hdone)

theorem Progress.prefix_marked (p : Progress) (stage : Stage) : p.completed <+: p.marked stage := by
  by_cases h : stage ∈ p.completed
  · rw [marked_of_mem h]
  · rw [marked_of_not_mem h]
    exact List.prefix_append ..

theorem Progress.marked_ne_nil (p : Progress) (stage : Stage) : p.marked stage ≠ [] := by
  by_cases h : stage ∈ p.completed
  · rw [marked_of_mem h]
    exact List.ne_nil_of_mem h
  · rw [marked_of_not_mem h]
    simp

theorem Held.settled (h : Held plan before n p v) : Settled plan before p.completed v := by
  refine ⟨.inr ⟨h.begun, h.within, p.updatedAt, ?_⟩, h.ledger⟩
  rw [h.grounds, ← h.target]

theorem Held.abandoned (h : Held plan before n p v) (f : Failure) (r : Report) :
    Abandoned plan before f r v :=
  ⟨p.completed, h.settled, fun _ => h.begun⟩

theorem Held.idle (h : Held plan before n p v) {e : Exchange} (he : e.question.isApart = true)
    (htask : e.question.task? = none) (hs : (Grounds.moves plan.checkout).noted v e v') :
    Held plan before n p v' := by
  refine ⟨h.target, ?_, h.within, h.reached, h.begun, ?_⟩
  · rw [Grounds.still he hs.1, h.grounds]
  · rw [hs.2]
    exact h.ledger.idle htask

theorem Pending.idle (h : Pending plan before n p stage v) {e : Exchange} (he : e.question.isApart = true)
    (htask : e.question.task? = none) (hs : (Grounds.moves plan.checkout).noted v e v') :
    Pending plan before n p stage v' := by
  have hstill := Grounds.still he hs.1
  refine ⟨h.target, hstill ▸ h.there, hstill ▸ h.controlled, h.within, h.reached, ?_⟩
  rw [hs.2]
  exact h.ledger.idle htask

theorem keeps_ask {q : Question} {Q : q.Answer → Grounds × List Exchange → Prop}
    (h : ∀ a v', (Grounds.moves plan.checkout).noted v ⟨q, some a⟩ v' → Q a v') :
    (ask q ends).Keeps (Grounds.moves plan.checkout).noted (fun _ => True) Q v :=
  ⟨fun _ _ => trivial, h⟩

theorem Held.reach (h : Held plan before n p v) {outcome : Outcome} {note : Option String}
    {Q : Report → Grounds × List Exchange → Prop}
    (hQ : ∀ v', Held plan before n p v' → Q (r.record stage outcome note) v') :
    Reached (Grounds.moves plan.checkout).noted (fun _ => True) stage outcome note Q r v :=
  ⟨fun _ _ => trivial, fun _ v' hs => hQ v' (h.idle rfl rfl hs)⟩

theorem Pending.completed (h : Pending plan before n p stage v) :
    Completed (Grounds.moves plan.checkout).noted (fun _ => True) (Abandoned plan before) plan p stage
      (fun p _ v => Held plan before n p v) r v := by
  -- The time comes from the clock, so what is stored can be read back.
  refine ⟨trivial, fun t ht => ⟨fun _ _ => trivial, fun result v' hs => ?_⟩⟩
  obtain ⟨⟨rfl, hstored⟩, hnotes⟩ := hs
  have hgrounds := hstored rfl h.there h.controlled ht.1.2
  refine ⟨h.target, hgrounds, h.within, h.reached, Progress.marked_ne_nil p stage, ?_⟩
  rw [hnotes]
  exact h.ledger.idle rfl

theorem Pending.reach (h : Pending plan before n p stage v) {outcome : Outcome} {note : Option String} :
    Reached (Grounds.moves plan.checkout).noted (fun _ => True) stage outcome note
      (Completed (Grounds.moves plan.checkout).noted (fun _ => True) (Abandoned plan before) plan p stage
        fun p _ v => Held plan before n p v) r v :=
  ⟨fun _ _ => trivial, fun _ _ hs => (h.idle rfl rfl hs).completed⟩

/-- Between two stages the record ends where the run is, or goes on with the next stage. -/
theorem Held.mem_iff (h : Held plan before n p v) (hn : Stage.sequence[n]? = some stage)
    (hdue : plan.isDue stage = true) :
    (p.completed = plan.dueBefore n ∧ stage ∉ p.completed) ∨
      (plan.dueBefore (n + 1) <+: p.completed ∧ stage ∈ p.completed) := by
  have hsplit := Plan.itinerary_eq hn hdue
  have hwithin := h.within
  rw [hsplit] at hwithin
  -- The record and what the run has passed are both beginnings of the itinerary.
  rcases prefix_cases hwithin h.reached with heq | hmore
  · refine .inl ⟨heq, fun hmem => ?_⟩
    have hnodup := plan.nodup_itinerary
    rw [hsplit, ← heq] at hnodup
    exact (List.nodup_append.mp hnodup).2.2 stage hmem stage List.mem_cons_self rfl
  · refine .inr ⟨?_, hmore.subset (List.mem_append_right _ (List.mem_singleton_self stage))⟩
    rw [Plan.dueBefore_of_isDue hn hdue]
    exact hmore

theorem Held.skip (h : Held plan before n p v) (hn : Stage.sequence[n]? = some stage)
    (hskip : plan.isDue stage = true → p.isComplete stage = true) : Held plan before (n + 1) p v := by
  refine ⟨h.target, h.grounds, h.within, ?_, h.begun, h.ledger⟩
  by_cases hdue : plan.isDue stage = true
  · rcases h.mem_iff hn hdue with ⟨_, hnew⟩ | ⟨hreached, _⟩
    · exact absurd (List.contains_iff_mem.mp (hskip hdue)) hnew
    · exact hreached
  · rw [plan.dueBefore_succ hn, if_neg hdue, List.append_nil]
    exact h.reached

theorem Held.marks (h : Held plan before n p v) (hn : Stage.sequence[n]? = some stage)
    (hdue : plan.isDue stage = true) :
    p.marked stage <+: plan.itinerary ∧ plan.dueBefore (n + 1) <+: p.marked stage := by
  rcases h.mem_iff hn hdue with ⟨heq, hnew⟩ | ⟨hreached, hold⟩
  · rw [Progress.marked_of_not_mem hnew, heq, Plan.dueBefore_of_isDue hn hdue, Plan.itinerary_eq hn hdue,
      List.prefix_append_right_inj]
    exact ⟨List.cons_prefix_cons.mpr ⟨rfl, List.nil_prefix⟩, List.prefix_refl _⟩
  · rw [Progress.marked_of_mem hold]
    exact ⟨h.within, hreached⟩

/-- An operation is asked for if its stage is not in the record. -/
theorem Held.advances {ε : Type} (h : Held plan before n p v) {q : Question}
    {op : Dialogue (Except ε Unit)} {wrap : ε → Failure} {made : Except ε Unit → Exchange}
    (hop : Asks op q made) (hn : Stage.sequence[n]? = some stage) (hdue : plan.isDue stage = true)
    (hq : q.isApart = true) (htask : q.task? = some stage) (hdone : (made (.ok ())).done? = some stage)
    (hfailed : ∀ e, (made (.error e)).done? = none) (hnew : p.isComplete stage = false) :
    Advances (Grounds.moves plan.checkout).noted (fun _ => True) (Abandoned plan before) plan p stage op wrap
      (fun p _ v => Held plan before (n + 1) p v) r v := by
  have hmem := Progress.not_mem_of_isComplete hnew
  refine hop.advances (fun _ _ => trivial) (fun e v' hs => ?_) fun v' hs => ?_
  · have hafter : Held plan before n p v' := by
      refine ⟨h.target, ?_, h.within, h.reached, h.begun, ?_⟩
      · rw [Grounds.still (by rw [hop.question, hq]) hs.1, h.grounds]
      · rw [hs.2]
        refine h.ledger.note (hfailed e) fun other hother => ?_
        rw [hop.question, htask, Option.some.injEq] at hother
        exact hother ▸ ⟨Plan.mem_itinerary hn hdue, hmem⟩
    exact hafter.abandoned _ r
  · have hgrounds : v'.1 = ⟨true, true, some p⟩ := by
      rw [Grounds.still (by rw [hop.question, hq]) hs.1, h.grounds]
    obtain ⟨hwithin, hreached⟩ := h.marks hn hdue
    refine Pending.reach ⟨h.target, by rw [hgrounds], by rw [hgrounds], hwithin, hreached, ?_⟩
    rw [hs.2, Progress.marked_of_not_mem hmem]
    exact h.ledger.carriedOut (by rw [hop.question, htask]) hdone (Plan.mem_itinerary hn hdue) hmem

variable {environment packages : String}

theorem Held.pin (h : Held plan before 1 p v)
    (hrevision : plan.syncPolicy ≠ .latest → plan.revision.isSome) :
    Step.Holds (Grounds.moves plan.checkout).noted (fun _ => True) (Abandoned plan before)
      (pin (.asked environment packages) plan p) (fun p _ v => Held plan before 2 p v) r v := by
  refine holds_pin (quiet_moves _).noted trivial (fun note hskip => h.reach fun v h => ?_) fun revision hrev hnew => ?_
  · refine h.skip rfl fun hdue => hskip.resolve_left fun hnone => ?_
    have hpolicy : plan.syncPolicy ≠ .latest := of_decide_eq_true hdue
    rw [pinnedRevision, if_neg hpolicy] at hnone
    rw [hnone] at hrevision
    cases hrevision hpolicy
  · have hpolicy := (pinnedRevision_eq_some hrev).1
    exact h.advances (asks_checkout _ revision) rfl (decide_eq_true hpolicy) rfl rfl rfl (fun _ => rfl) hnew

theorem Held.sync (h : Held plan before 2 p v) :
    Step.Holds (Grounds.moves plan.checkout).noted (fun _ => True) (Abandoned plan before)
      (sync (.asked environment packages) plan p) (fun p _ v => Held plan before 3 p v) r v := by
  refine holds_sync (quiet_moves _).noted trivial (fun note hskip => h.reach fun v h => ?_) fun hpolicy hnew => ?_
  · refine h.skip rfl fun hdue => hskip.resolve_left fun hpinned => ?_
    exact of_decide_eq_true hdue hpinned
  · exact h.advances (asks_pull _) rfl (decide_eq_true hpolicy) rfl rfl rfl (fun _ => rfl) hnew

theorem Held.provision {q : Question} {setup : Dialogue (Except ProvisionFailure Unit)}
    {wrap : ProvisionFailure → Failure} {name title : String} {made : Except ProvisionFailure Unit → Exchange}
    (h : Held plan before n p v) (hop : Asks setup q made) (hn : Stage.sequence[n]? = some stage)
    (hdue : plan.isDue stage = true) (hq : q.isApart = true) (htask : q.task? = some stage)
    (hdone : (made (.ok ())).done? = some stage) (hfailed : ∀ e, (made (.error e)).done? = none) :
    Step.Holds (Grounds.moves plan.checkout).noted (fun _ => True) (Abandoned plan before)
      (provision (.asked environment packages) plan p ⟨name, setup⟩ stage wrap title)
      (fun p _ v => Held plan before (n + 1) p v) r v := by
  refine holds_provision (quiet_moves _).noted trivial (fun note hcomplete => h.reach fun v h => ?_) fun hnew => ?_
  · exact h.skip hn fun _ => hcomplete
  · exact h.advances hop hn hdue hq htask hdone hfailed hnew

theorem Held.configure (h : Held plan before 5 p v) :
    Step.Holds (Grounds.moves plan.checkout).noted (fun _ => True) (Abandoned plan before)
      (configure (.asked environment packages) plan p) (fun _ _ v => ∃ p, Held plan before 5 p v) r v := by
  refine holds_configure (quiet_moves _).noted (fun note _ => h.reach fun v h => ⟨p, h⟩) fun tool _ => ?_
  refine ⟨fun _ _ => trivial, fun result v hs => ?_⟩
  have h := h.idle rfl rfl hs
  cases result with
  | ok changed =>
    change Applied _ _ _ _ _ _ _ _ (.ok changed) _
    rw [Applied]
    refine h.reach fun v h => ?_
    have hwithin : p.marked .configured <+: plan.itinerary := (h.marks rfl rfl).1
    have hpending : Pending plan before 5 p .configured v := by
      refine ⟨h.target, by rw [h.grounds], by rw [h.grounds], hwithin, ?_, ?_⟩
      · exact h.reached.trans (p.prefix_marked _)
      -- The setting is applied in every run, but only the first of them marks it.
      · by_cases hmem : .configured ∈ p.completed
        · rw [Progress.marked_of_mem hmem]
          exact h.ledger
        · rw [Progress.marked_of_not_mem hmem]
          exact h.ledger.configured
    exact hpending.completed.mono fun p r v h => ⟨p, h⟩
  | error failure =>
    change Applied _ _ _ _ _ _ _ _ (.error failure) _
    rw [Applied]
    split
    · exact ⟨trivial, fun note => h.reach fun v h => ⟨p, h⟩⟩
    · exact h.abandoned _ r

theorem Settled.idle {now : List Stage} (h : Settled plan before now v) {e : Exchange}
    (he : e.question.isApart = true) (htask : e.question.task? = none)
    (hs : (Grounds.moves plan.checkout).noted v e v') : Settled plan before now v' := by
  refine ⟨Grounds.still he hs.1 ▸ h.1, ?_⟩
  rw [hs.2]
  exact h.2.idle htask

/-- A run that fails before its first stage leaves everything as it was. -/
theorem Settled.abandoned (h : Settled plan before before v) (hr : r.stages = []) (f : Failure) :
    Abandoned plan before f r v := by
  refine ⟨before, h, fun ⟨record, hrecord, _⟩ => ?_⟩
  rw [hr] at hrecord
  cases hrecord

theorem Plan.itinerary_cons (plan : Plan) : ∃ rest, plan.itinerary = .cloned :: rest :=
  ⟨_, itinerary_eq (n := 0) rfl rfl⟩

theorem Settled.clones (h : Settled plan [] [] v) (hr : r.stages = []) :
    Clones (Grounds.moves plan.checkout).noted (fun _ => True) (Abandoned plan []) plan
      (fun p r v => Completed (Grounds.moves plan.checkout).noted (fun _ => True) (Abandoned plan []) plan p
        .cloned (fun p _ v => Held plan [] 1 p v) r v) r v := by
  have hcloned : .cloned ∈ plan.itinerary := Plan.mem_itinerary (n := 0) rfl rfl
  refine ⟨fun _ _ => trivial, fun result v' hs => ?_⟩
  cases result with
  | error e =>
    -- A clone that fails leaves no checkout, so the next run clones again.
    refine Settled.abandoned (v := v') ⟨.inl ⟨rfl, hs.1⟩, ?_⟩ hr (.acquisition e)
    rw [hs.2]
    refine h.2.note rfl fun stage hstage => ?_
    cases hstage
    exact ⟨hcloned, List.not_mem_nil⟩
  | ok a =>
    change Tried _ _ _ (.ok a) v'
    rw [Tried]
    refine ⟨fun _ _ => trivial, fun _ v'' hs' => ⟨trivial, fun t => Pending.completed ?_⟩⟩
    obtain ⟨rest, hrest⟩ := plan.itinerary_cons
    have hfirst : plan.dueBefore 1 = [.cloned] := rfl
    have hledger : Ledger plan [] [.cloned] v'.2 := by
      rw [hs.2]
      exact h.2.carriedOut rfl rfl hcloned List.not_mem_nil
    have hstill := Grounds.still rfl hs'.1
    refine ⟨rfl, hstill ▸ hs.1.1, hstill ▸ hs.1.2, ?_, ?_, ?_⟩
    · rw [hrest]
      exact List.cons_prefix_cons.mpr ⟨rfl, List.nil_prefix⟩
    · exact hfirst ▸ List.prefix_refl _
    · rw [hs'.2]
      exact hledger.idle rfl

theorem Settled.takesUp (h : Settled plan before before v) (hne : before ≠ []) {t : Instant}
    (hgrounds : v.1 = ⟨true, true, some ⟨plan.targetLabel, before, t⟩⟩) (hwithin : before <+: plan.itinerary) :
    Pending plan before 1 ⟨plan.targetLabel, before, t⟩ .cloned v := by
  obtain ⟨rest, hrest⟩ := plan.itinerary_cons
  have hfirst : [.cloned] <+: before := by
    cases before with
    | nil => exact absurd rfl hne
    | cons stage others =>
      rw [hrest] at hwithin
      obtain ⟨rfl, _⟩ := List.cons_prefix_cons.mp hwithin
      exact List.cons_prefix_cons.mpr ⟨rfl, List.nil_prefix⟩
  have hmarked : Progress.marked ⟨plan.targetLabel, before, t⟩ .cloned = before :=
    Progress.marked_of_mem (hfirst.subset (List.mem_singleton_self _))
  refine ⟨rfl, by rw [hgrounds], by rw [hgrounds], ?_, ?_, ?_⟩
  · rw [hmarked]
    exact hwithin
  · rw [hmarked]
    exact hfirst
  · rw [hmarked]
    exact h.2

theorem Settled.resumes (h : Settled plan before before v) (hne : before ≠ []) {t : Instant}
    (hgrounds : v.1 = ⟨true, true, some ⟨plan.targetLabel, before, t⟩⟩) (hwithin : before <+: plan.itinerary)
    (hresume : plan.rerunPolicy = .resume) :
    Resumes (Grounds.moves plan.checkout).noted (fun _ => True) (Abandoned plan before) plan
      (fun p r v => Completed (Grounds.moves plan.checkout).noted (fun _ => True) (Abandoned plan before) plan
        p .cloned (fun p _ v => Held plan before 1 p v) r v) r v := by
  rw [Resumes, if_neg (by rw [hresume]; decide)]
  refine keeps_ask fun isTree v₁ hs₁ => ?_
  have htree : isTree = true := hs₁.1.2 rfl (by rw [hgrounds])
  rw [if_pos htree]
  refine ⟨trivial, keeps_ask fun _ v₂ hs₂ => keeps_ask fun loaded v₃ hs₃ => ?_⟩
  have hsame : v₂.1 = v.1 := (Grounds.still rfl hs₂.1).trans (Grounds.still rfl hs₁.1)
  have hloaded : loaded = some ⟨plan.targetLabel, before, t⟩ := by
    rw [hs₃.1.2 rfl, hsame, hgrounds]
  have hlater : Settled plan before before v₃ := by
    obtain ⟨hstanding, hledger⟩ := (h.idle rfl rfl hs₁).idle rfl rfl hs₂
    refine ⟨hs₃.1.1 ▸ hstanding, ?_⟩
    rw [hs₃.2]
    exact hledger.idle rfl
  -- The target of the record is that of the plan, so nothing is started over.
  rw [hloaded, TakesUp, if_pos rfl]
  exact (hlater.takesUp hne (by rw [hs₃.1.1, hsame, hgrounds]) hwithin).completed

theorem Settled.acquire (h : Settled plan before before v) (hr : r.stages = [])
    (hresume : plan.rerunPolicy = .resume) :
    Step.Holds (Grounds.moves plan.checkout).noted (fun _ => True) (Abandoned plan before)
      (acquire (.asked environment packages) plan)
      (fun p r v => Completed (Grounds.moves plan.checkout).noted (fun _ => True) (Abandoned plan before) plan
        p .cloned (fun p _ v => Held plan before 1 p v) r v) r v := by
  refine holds_acquire (quiet_moves _).noted (keeps_ask fun there v' hs => ?_)
  have hthere : there = v'.1.there := (hs.1.2 rfl).trans (congrArg Grounds.there hs.1.1.symm)
  have h := h.idle rfl rfl hs
  rcases h.1 with ⟨rfl, habsent⟩ | ⟨hne, hwithin, t, hgrounds⟩
  · rw [hthere, habsent, if_neg (by decide)]
    exact ⟨trivial, h.clones hr⟩
  · rw [hthere, hgrounds, if_pos rfl]
    exact h.resumes hne hgrounds hwithin hresume

theorem Settled.stages (h : Settled plan before before v) (hr : r.stages = [])
    (hresume : plan.rerunPolicy = .resume) (hrevision : plan.syncPolicy ≠ .latest → plan.revision.isSome) :
    Step.Holds (Grounds.moves plan.checkout).noted (fun _ => True) (Abandoned plan before)
      (stages (.asked environment packages) plan) (fun _ _ v => ∃ p, Held plan before 5 p v) r v := by
  refine holds_stages (quiet_moves _).noted (keeps_ask fun result v' hs => ?_)
    (fun p r v h => Held.pin h hrevision) (fun p r v h => Held.sync h)
    (fun p r v title h => Held.provision h asks_setupEnvironment rfl rfl rfl rfl rfl fun _ => rfl)
    (fun p r v title h => Held.provision h asks_setupPackages rfl rfl rfl rfl rfl fun _ => rfl)
    (fun p r v h => Held.configure h)
  have h := h.idle rfl rfl hs
  cases result with
  | ok a => exact h.acquire hr hresume
  | error e => exact h.abandoned hr (.acquisition e)

/-- Where a run ends, the record holds what it held before and what the run has carried out. If the run
came to its end, that is the whole itinerary up to its last stage. -/
theorem Settled.keeps_run (h : Settled plan before before v) (hr : r.stages = [])
    (hresume : plan.rerunPolicy = .resume) (hrevision : plan.syncPolicy ≠ .latest → plan.revision.isSome) :
    (run (.asked environment packages) plan r).Keeps (Grounds.moves plan.checkout).noted (fun _ => True)
      (fun out v => ∃ now, Settled plan before now v ∧
        ((∃ record ∈ out.2.stages, record.stage = .cloned) → now ≠ []) ∧
        (out.2.stage = .done → plan.dueBefore 5 <+: now)) v := by
  refine Procedure.keeps_run (Keeps.mono (h.stages hr hresume hrevision) fun out v h => ?_)
  obtain ⟨result, r⟩ := out
  cases result with
  | error f =>
    obtain ⟨now, hsettled, hcloned⟩ := h
    exact ⟨now, hsettled, hcloned, nofun⟩
  | ok a =>
    obtain ⟨p, h⟩ := h
    refine keeps_ask fun head v₁ hs₁ => keeps_ask fun _ v₂ hs₂ => ?_
    have h := (h.idle rfl rfl hs₁).idle rfl rfl hs₂
    exact ⟨p.completed, h.settled, fun _ => h.begun, fun _ => h.reached⟩

end

/-! ## Any number of runs -/

theorem Dialogue.Plays.ended {S α : Type} {w : Surroundings S} (hw : ∀ s q s', ¬ w s ⟨q, none⟩ s')
    {d : Dialogue α} {s s' : S} {es : List Exchange} {end? : Option α} (course : d.Plays w s es end? s') :
    ∃ a, end? = some a := by
  induction course with
  | ends a s => exact ⟨a, rfl⟩
  | broken h => exact absurd h (hw _ _ _)
  | ask _ _ ih => exact ih

/-- A run got past the first stage: it has a checkout. -/
def Visit.GotPastAcquisition (v : Visit) : Prop :=
  ∃ result report, v.result = some (result, report) ∧ ∃ record ∈ report.stages, record.stage = .cloned

def Visit.IsDone (v : Visit) : Prop := ∃ result report, v.result = some (result, report) ∧ report.stage = .done

section

variable {plan : Plan} {before now : List Stage} {h₀ h h' : Host} {visits more : List Visit}

theorem not_reliable_none (checkout : Path) (h : Host) (q : Question) (h' : Host) :
    ¬ reliable checkout h ⟨q, none⟩ h' := by
  cases q <;> exact id

theorem Standing.visit {environment packages : String} {es : List Exchange}
    {end? : Option (Except Failure Unit × Report)} (hstanding : Standing plan before (h.grounds plan.checkout))
    (hresume : plan.rerunPolicy = .resume) (hrevision : plan.syncPolicy ≠ .latest → plan.revision.isSome)
    (course : (run (.asked environment packages) plan (.ofPlan plan)).Plays (reliable plan.checkout) h es end? h') :
    ∃ now result report,
      Standing plan now (h'.grounds plan.checkout) ∧ Ledger plan before now es ∧ end? = some (result, report) ∧
      ((∃ record ∈ report.stages, record.stage = .cloned) → now ≠ []) ∧
      (report.stage = .done → plan.dueBefore 5 <+: now) := by
  obtain ⟨⟨result, report⟩, rfl⟩ := course.ended (not_reliable_none plan.checkout)
  let view : Host → Grounds := fun h => h.grounds plan.checkout
  have hview : ∀ h e h', reliable plan.checkout h e h' → Grounds.moves plan.checkout (view h) e (view h') :=
    fun _ _ _ => moves_of_reliable
  have hseen := (course.map hview).noted []
  have hsettled : Settled plan before before (h.grounds plan.checkout, []) := ⟨hstanding, ledger_nil plan before⟩
  obtain ⟨now, ⟨hafter, hledger⟩, hcloned, hdone⟩ :=
    (hsettled.keeps_run rfl hresume hrevision).plays hseen
  rw [List.nil_append] at hledger
  exact ⟨now, result, report, hafter, hledger.of_heard, rfl, hcloned, hdone⟩

theorem Standing.history (hstanding : Standing plan before (h₀.grounds plan.checkout))
    (hresume : plan.rerunPolicy = .resume) (hrevision : plan.syncPolicy ≠ .latest → plan.revision.isSome)
    (history : History (reliable plan.checkout) plan.checkout h₀ visits h) (hplans : ∀ v ∈ visits, v.plan = plan) :
    ∃ now, Standing plan now (h.grounds plan.checkout) ∧
      Ledger plan before now (visits.flatMap Visit.exchanges) ∧
      (∀ v ∈ visits, v.GotPastAcquisition → now ≠ []) ∧
      ∀ v ∈ visits, v.IsDone → plan.dueBefore 5 <+: now := by
  induction history with
  | none =>
    exact ⟨before, hstanding, ledger_nil plan before, fun _ hv => absurd hv List.not_mem_nil,
      fun _ hv => absurd hv List.not_mem_nil⟩
  | @next past v h h' environment packages _ _ course ih =>
    obtain ⟨now, hbetween, hledger, hacquired, hdone⟩ :=
      ih fun v hv => hplans v (List.mem_append_left _ hv)
    rw [hplans v (List.mem_append_right _ (List.mem_singleton_self v))] at course
    obtain ⟨later, result, report, hafter, hmore, hresult, hcloned, hend⟩ :=
      hbetween.visit hresume hrevision course
    refine ⟨later, hafter, ?_, fun u hu hgot => ?_, fun u hu hisDone => ?_⟩
    · rw [List.flatMap_append, List.flatMap_singleton]
      exact hledger.append hmore
    · rcases List.mem_append.mp hu with hold | hnew
      · exact hmore.ne_nil (hacquired u hold hgot)
      · obtain rfl := List.mem_singleton.mp hnew
        obtain ⟨_, _, hresult', hrecord⟩ := hgot
        cases hresult.symm.trans hresult'
        exact hcloned hrecord
    · rcases List.mem_append.mp hu with hold | hnew
      · exact (hdone u hold hisDone).trans hmore.grown
      · obtain rfl := List.mem_singleton.mp hnew
        obtain ⟨_, _, hresult', hstage⟩ := hisDone
        cases hresult.symm.trans hresult'
        exact hend hstage

theorem Standing.nodup {s : Grounds} (h : Standing plan now s) : now.Nodup := by
  rcases h with ⟨rfl, _⟩ | ⟨_, hwithin, _⟩
  · exact List.nodup_nil
  · exact plan.nodup_itinerary.sublist hwithin.sublist

theorem Standing.record (hstanding : Standing plan now (h.grounds plan.checkout)) (hne : now ≠ []) :
    now <+: plan.itinerary ∧ ∃ t, h.record plan.checkout = some ⟨plan.targetLabel, now, t⟩ := by
  rcases hstanding with ⟨hnil, _⟩ | ⟨_, hwithin, t, hgrounds⟩
  · exact absurd hnil hne
  · refine ⟨hwithin, t, ?_⟩
    rw [← grounds_record, hgrounds]

theorem Plan.itinerary_concat (plan : Plan) : plan.itinerary = plan.dueBefore 5 ++ [.configured] :=
  itinerary_eq rfl rfl

theorem Plan.worked_itinerary (plan : Plan) : worked plan.itinerary = plan.dueBefore 5 := by
  have hne : ∀ stage ∈ plan.dueBefore 5, stage ≠ .configured := by
    intro stage hstage
    have hmem := (List.mem_filter.mp hstage).1
    rintro rfl
    revert hmem
    decide
  rw [itinerary_concat, worked, List.filter_append, List.filter_eq_self.mpr (by simpa using hne)]
  simp

/-- The stages that runs have carried out. -/
def carriedOut (visits : List Visit) : List Stage :=
  (visits.flatMap Visit.exchanges).filterMap Exchange.done?

/-- The setup of packages fails, the next run goes on with it and is done, and one more run comes after. -/
theorem histories_after_failure :
    ∃ (h₀ h h' : Host) (u₁ u₂ v : Visit), h₀.files.present h₀.cwd syncedPlan.checkout = false ∧
      History (reliable syncedPlan.checkout) syncedPlan.checkout h₀ [u₁, u₂] h ∧
      History (reliable syncedPlan.checkout) syncedPlan.checkout h [v] h' ∧
      (∀ u ∈ [u₁, u₂] ++ [v], u.plan = syncedPlan) ∧ u₁.GotPastAcquisition ∧ ¬ u₁.IsDone ∧ u₂.IsDone := by
  let bare : Host := {}
  have habsent : bare.files.present bare.cwd syncedPlan.checkout = false := by decide +kernel
  have hbegin : CheckoutHolds syncedPlan.checkout bare none := ⟨habsent, by decide +kernel⟩
  have hstart : History (reliable syncedPlan.checkout) syncedPlan.checkout bare [] bare := .none
  obtain ⟨es₁, h₁, run₁, hh₁⟩ := hstart.run_dependable hbegin (.error (.missingScript "packages.sh"))
  obtain ⟨es₂, h₂, run₂, hh₂⟩ := run₁.run_dependable hh₁ (.ok ())
  have hagain : History (reliable syncedPlan.checkout) syncedPlan.checkout h₂ [] h₂ := .none
  obtain ⟨es₃, h₃, run₃, _⟩ := hagain.run_dependable hh₂ (.ok ())
  let v₁ := dependableRun syncedPlan (.error (.missingScript "packages.sh")) none
  let v₂ := dependableRun syncedPlan (.ok ()) v₁.2
  have hfailed : (v₁.1.any fun out => out.2.stages.any (·.stage == .cloned) && out.2.stage != .done) = true := by
    decide +kernel
  have hend : (v₂.1.any fun out => out.2.stage == .done) = true := by decide +kernel
  obtain ⟨⟨result₁, report₁⟩, hresult₁, hreport₁⟩ := (Option.any_eq_true _ _).mp hfailed
  obtain ⟨⟨result₂, report₂⟩, hresult₂, hreport₂⟩ := (Option.any_eq_true _ _).mp hend
  rw [Bool.and_eq_true, bne_iff_ne, List.any_eq_true] at hreport₁
  obtain ⟨⟨record, hrecord, hcloned⟩, hnot⟩ := hreport₁
  refine ⟨bare, h₂, h₃, ⟨syncedPlan, es₁, v₁.1⟩, ⟨syncedPlan, es₂, v₂.1⟩, ⟨syncedPlan, es₃, _⟩, habsent, run₂,
    run₃, by simp, ⟨result₁, report₁, hresult₁, record, hrecord, eq_of_beq hcloned⟩, ?_,
    ⟨result₂, report₂, hresult₂, eq_of_beq hreport₂⟩⟩
  rintro ⟨_, _, hresult, hstage⟩
  cases hresult₁.symm.trans hresult
  exact hnot hstage

/-- Runs of one plan that go on from each other, each of which may fail anywhere. After one that got past
acquisition, the record holds the target and a beginning of the itinerary, and it never shrinks. No operation
succeeds twice. Once a run is done, everything that the plan asks for has succeeded once, and no later run
asks for any of it. -/
theorem progress_exactly_once {settings : Settings} {workdir : Path} {plan : Plan} {h₀ h h' : Host}
    {visits more : List Visit} (haccepted : Plan.ofSettings settings workdir = .ok plan)
    (hresume : plan.rerunPolicy = .resume) (habsent : h₀.files.present h₀.cwd plan.checkout = false)
    (first : History (reliable plan.checkout) plan.checkout h₀ visits h)
    (later : History (reliable plan.checkout) plan.checkout h more h')
    (hplans : ∀ v ∈ visits ++ more, v.plan = plan) :
    ((∃ v ∈ visits, v.GotPastAcquisition) →
      ∃ p p', h.record plan.checkout = some p ∧ p.target = plan.targetLabel ∧ p.completed <+: plan.itinerary ∧
        h'.record plan.checkout = some p' ∧ p'.target = plan.targetLabel ∧ p'.completed <+: plan.itinerary ∧
        p.completed <+: p'.completed) ∧
    (∀ stage, (carriedOut (visits ++ more)).count stage ≤ 1) ∧
    ((∃ v ∈ visits, v.IsDone) →
      (∀ stage ∈ worked plan.itinerary, (carriedOut visits).count stage = 1) ∧
      ∀ v ∈ more, ∀ e ∈ v.exchanges, e.question.task? = none) := by
  have hrevision := (Plan.ofSettings_ok haccepted).1
  have hstart : Standing plan [] (h₀.grounds plan.checkout) := .inl ⟨rfl, habsent⟩
  obtain ⟨now, hnow, hledger, hacquired, hdone⟩ :=
    hstart.history hresume hrevision first fun v hv => hplans v (List.mem_append_left _ hv)
  obtain ⟨after, hafter, hmore, _, _⟩ :=
    hnow.history hresume hrevision later fun v hv => hplans v (List.mem_append_right _ hv)
  have hfirst : worked now = carriedOut visits := hledger.worked
  have hall : worked after = carriedOut (visits ++ more) := by
    rw [carriedOut, List.flatMap_append]
    exact (hledger.append hmore).worked
  refine ⟨fun ⟨v, hv, hgot⟩ => ?_, fun stage => ?_, fun ⟨v, hv, hisDone⟩ => ⟨fun stage hstage => ?_, ?_⟩⟩
  · have hne := hacquired v hv hgot
    obtain ⟨hwithin, t, hrecord⟩ := hnow.record hne
    obtain ⟨hwithin', t', hrecord'⟩ := hafter.record (hmore.ne_nil hne)
    exact ⟨_, _, hrecord, rfl, hwithin, hrecord', rfl, hwithin', hmore.grown⟩
  · rw [← hall]
    exact List.nodup_iff_count_le_one.mp (hafter.nodup.filter _) stage
  · rw [← hfirst]
    refine List.count_eq_one_of_mem (hnow.nodup.filter _) ?_
    have hwork := (List.mem_filter.mp hstage).2
    rw [Plan.worked_itinerary] at hstage
    exact List.mem_filter.mpr ⟨(hdone v hv hisDone).subset hstage, hwork⟩
  · intro u hu e he
    cases htask : e.question.task? with
    | none => rfl
    | some stage =>
      obtain ⟨hdue, hnew⟩ := hmore.asked e (List.mem_flatMap.mpr ⟨u, hu, he⟩) stage htask
      rw [plan.itinerary_concat, List.mem_append, List.mem_singleton] at hdue
      rcases hdue with hearlier | rfl
      · exact absurd ((hdone v hv hisDone).subset hearlier) hnew
      -- What may be left of the itinerary is the setting, and no operation carries that out.
      · exact absurd htask e.question.task?_ne_configured

theorem progress_exactly_once_after_failure :
    ∃ (h₀ h h' : Host) (u₁ u₂ v : Visit),
      Plan.ofSettings syncedSettings ⟨""⟩ = .ok syncedPlan ∧
      h₀.files.present h₀.cwd syncedPlan.checkout = false ∧
      History (reliable syncedPlan.checkout) syncedPlan.checkout h₀ [u₁, u₂] h ∧
      History (reliable syncedPlan.checkout) syncedPlan.checkout h [v] h' ∧
      u₁.GotPastAcquisition ∧ ¬ u₁.IsDone ∧ u₂.IsDone ∧
      (∃ p p', h.record syncedPlan.checkout = some p ∧ p.target = "v1+sync" ∧
        h'.record syncedPlan.checkout = some p' ∧ p'.completed <+: Stage.sequence ∧
        p.completed <+: p'.completed) ∧
      (∀ stage ∈ [.cloned, .pinned, .synced, .envReady, .pkgsReady], (carriedOut [u₁, u₂]).count stage = 1) ∧
      ∀ e ∈ v.exchanges, e.question.task? = none := by
  obtain ⟨h₀, h, h', u₁, u₂, v, habsent, first, later, hplans, hgot, hnot, hdone⟩ := histories_after_failure
  have haccepted : Plan.ofSettings syncedSettings ⟨""⟩ = .ok syncedPlan := rfl
  have hlabel : syncedPlan.targetLabel = "v1+sync" := by decide +kernel
  have hwork : worked syncedPlan.itinerary = [.cloned, .pinned, .synced, .envReady, .pkgsReady] := by decide
  obtain ⟨hrecords, _, honce⟩ := progress_exactly_once haccepted rfl habsent first later hplans
  obtain ⟨p, p', hp, htarget, _, hp', _, hwithin, hgrown⟩ := hrecords ⟨u₁, List.mem_cons_self, hgot⟩
  obtain ⟨hcount, hquiet⟩ := honce ⟨u₂, List.mem_cons_of_mem _ List.mem_cons_self, hdone⟩
  rw [hwork] at hcount
  exact ⟨h₀, h, h', u₁, u₂, v, haccepted, habsent, first, later, hgot, hnot, hdone,
    ⟨p, p', hp, htarget.trans hlabel, hp', hwithin, hgrown⟩, hcount, hquiet v (List.mem_singleton_self v)⟩

end

end Bringup

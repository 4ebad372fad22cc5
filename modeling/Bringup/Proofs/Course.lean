import Bringup.Proofs.Dialogue

/-!
# Courses of a dialogue

What a dialogue can come to in given surroundings, and rules for what it keeps there.

* `Surroundings`: what an exchange may do to a state. An exchange without an answer breaks the dialogue off.
* `Dialogue.Plays`: a course of a dialogue, with its exchanges and what it ended with, if it came to its end.
* `Dialogue.Keeps`: whatever is answered, one condition holds where the dialogue is broken off and another
  where it ends.
* `Step.Holds`: the same for a part of a run, with a condition for its failures. The rules
  `holds_pin`, `holds_sync`, … say once what each stage asks and when.
-/

namespace Bringup

set_option autoImplicit false

variable {S V : Type} {α β ε : Type}

/-- What an exchange may do to a state. -/
abbrev Surroundings (S : Type) := S → Exchange → S → Prop

namespace Dialogue

/-- The dialogue can have these exchanges, lead from one state to another and end with this; nothing if
it was broken off. -/
inductive Plays (w : Surroundings S) : Dialogue α → S → List Exchange → Option α → S → Prop
  | ends (a : α) (s : S) : Plays w (ends a) s [] (some a) s
  | broken {q : Question} {next : q.Answer → Dialogue α} {s s' : S} (h : w s ⟨q, none⟩ s') :
      Plays w (ask q next) s [⟨q, none⟩] none s'
  | ask {q : Question} {next : q.Answer → Dialogue α} {a : q.Answer} {s s₁ s' : S}
      {es : List Exchange} {end? : Option α} (h : w s ⟨q, some a⟩ s₁)
      (rest : Plays w (next a) s₁ es end? s') : Plays w (ask q next) s (⟨q, some a⟩ :: es) end? s'

/-- Whatever is answered, `I` holds where the dialogue is broken off and `Q` where it ends. -/
def Keeps (w : Surroundings S) (I : S → Prop) (Q : α → S → Prop) : Dialogue α → S → Prop
  | ends a, s => Q a s
  | ask q next, s =>
    (∀ s', w s ⟨q, none⟩ s' → I s') ∧ ∀ a s', w s ⟨q, some a⟩ s' → (next a).Keeps w I Q s'

/-- `Q` of what a course ended with, or `I` if it was broken off. -/
def Ended (I : S → Prop) (Q : α → S → Prop) : Option α → S → Prop
  | some a, s => Q a s
  | none, s => I s

variable {w : Surroundings S} {I : S → Prop}

theorem Ended.invariant {Q : α → S → Prop} {end? : Option α} {s : S}
    (h : Ended I (fun a s => I s ∧ Q a s) end? s) : I s := by
  cases end? with
  | none => exact h
  | some a => exact h.1

theorem keeps_bind {Q : β → S → Prop} (d : Dialogue α) (f : α → Dialogue β) (s : S) :
    (d >>= f).Keeps w I Q s ↔ d.Keeps w I (fun a s => (f a).Keeps w I Q s) s := by
  induction d generalizing s with
  | ends a => exact Iff.rfl
  | ask q next ih =>
    refine and_congr_right fun _ => forall_congr' fun a => forall_congr' fun s' => ?_
    exact imp_congr_right fun _ => ih a s'

theorem Keeps.mono {Q Q' : α → S → Prop} {d : Dialogue α} {s : S} (h : d.Keeps w I Q s)
    (hQ : ∀ a s, Q a s → Q' a s) : d.Keeps w I Q' s := by
  induction d generalizing s with
  | ends a => exact hQ a s h
  | ask q next ih => exact ⟨h.1, fun a s' hw => ih a (h.2 a s' hw)⟩

/-- What a dialogue keeps holds at the end of each of its courses. -/
theorem Keeps.plays {Q : α → S → Prop} {d : Dialogue α} {s s' : S} {es : List Exchange}
    {end? : Option α} (h : d.Keeps w I Q s) (course : d.Plays w s es end? s') : Ended I Q end? s' := by
  induction course with
  | ends a s => exact h
  | broken hw => exact h.1 _ hw
  | ask hw _ ih => exact ih (h.2 _ _ hw)

theorem Plays.map {v : Surroundings V} {view : S → V}
    (hview : ∀ s e s', w s e s' → v (view s) e (view s')) {d : Dialogue α} {s s' : S}
    {es : List Exchange} {end? : Option α} (course : d.Plays w s es end? s') :
    d.Plays v (view s) es end? (view s') := by
  induction course with
  | ends a s => exact .ends a _
  | broken hw => exact .broken (hview _ _ _ hw)
  | ask hw _ ih => exact .ask (hview _ _ _ hw) ih

/-- How a computation ended that may be broken off, and in which state. -/
def endOf {σ : Type} : Except σ (α × σ) → Option α × σ
  | .ok (a, v) => (some a, v)
  | .error v => (none, v)

/-- What a dialogue keeps holds at its end, whoever it is held with, if the surroundings allow their
answers. -/
theorem Keeps.hold {σ : Type} {R : σ → S → Prop} {c : Collaborators (StateM σ)}
    (hc : ∀ q v s, R v s → ∃ s', w s ⟨q, some ((c.answer q).run v).1⟩ s' ∧ R ((c.answer q).run v).2 s')
    {Q : α → S → Prop} {d : Dialogue α} {s : S} {v : σ} (h : d.Keeps w I Q s) (hR : R v s) :
    ∃ s', Q ((d.hold c).run v).1 s' ∧ R ((d.hold c).run v).2 s' := by
  induction d generalizing s v with
  | ends a => exact ⟨s, h, hR⟩
  | ask q next ih =>
    obtain ⟨s₁, hw, hR₁⟩ := hc q v s hR
    exact ih _ (h.2 _ s₁ hw) hR₁

/-- A dialogue with collaborators whose answers are possible is a course. -/
theorem plays_hold {σ : Type} {R : S → σ → Prop} {c : Collaborators (StateT σ (Except σ))}
    (hc : ∀ q s v, R s v → ∃ s', w s ⟨q, (endOf ((c.answer q).run v)).1⟩ s' ∧
      R s' (endOf ((c.answer q).run v)).2)
    (d : Dialogue α) {s : S} {v : σ} (h : R s v) :
    ∃ es s', d.Plays w s es (endOf ((d.hold c).run v)).1 s' ∧ R s' (endOf ((d.hold c).run v)).2 := by
  induction d generalizing s v with
  | ends a => exact ⟨[], s, .ends a s, h⟩
  | ask q next ih =>
    obtain ⟨s₁, hw, hR⟩ := hc q s v h
    rw [hold, StateT.run_bind]
    cases hanswer : (c.answer q).run v with
    | error v₁ =>
      rw [hanswer] at hw hR
      exact ⟨[⟨q, none⟩], s₁, .broken hw, hR⟩
    | ok out =>
      obtain ⟨a, v₁⟩ := out
      rw [hanswer] at hw hR
      obtain ⟨es, s', course, hR'⟩ := ih a hR
      exact ⟨⟨q, some a⟩ :: es, s', .ask hw course, hR'⟩

end Dialogue

/-! ## Quiet questions and notes -/

/-- A question that has no part in what a run achieves: the time, a banner, a line of the log other than
on a stage that is reached. -/
def Question.isQuiet : Question → Bool
  | now => true
  | banner _ => true
  | log level _ => level != .debug
  | _ => false

/-- Quiet questions change nothing. -/
def Surroundings.Quiet (w : Surroundings S) : Prop :=
  ∀ s q a s', q.isQuiet = true → w s ⟨q, a⟩ s' → s' = s

/-- An exchange that is not quiet. -/
def Exchange.isHeard (e : Exchange) : Bool := !e.question.isQuiet

/-- Surroundings in which every exchange that is not quiet is noted. -/
def Surroundings.noted (w : Surroundings S) : Surroundings (S × List Exchange) := fun s e s' =>
  w s.1 e s'.1 ∧ s'.2 = s.2 ++ [e].filter Exchange.isHeard

theorem eq_of_mem_heard {e e' : Exchange} (h : e' ∈ [e].filter Exchange.isHeard) : e' = e :=
  List.mem_singleton.mp (List.mem_filter.mp h).1

theorem Surroundings.Quiet.noted {w : Surroundings S} (hw : w.Quiet) : w.noted.Quiet := by
  intro s q a s' hq h
  have hs : s'.1 = s.1 := hw _ _ _ _ hq h.1
  have hl : s'.2 = s.2 := by rw [h.2]; simp [Exchange.isHeard, hq]
  exact Prod.ext hs hl

theorem Dialogue.Plays.noted {w : Surroundings S} {d : Dialogue α} {s s' : S} {es : List Exchange}
    {end? : Option α} (course : d.Plays w s es end? s') (l : List Exchange) :
    d.Plays w.noted (s, l) es end? (s', l ++ es.filter Exchange.isHeard) := by
  induction course generalizing l with
  | ends a s => simpa using Plays.ends a (s, l)
  | broken hw => exact .broken ⟨hw, rfl⟩
  | @ask q next a s s₁ s' es end? hw _ ih =>
    have hl : l ++ (⟨q, some a⟩ :: es).filter Exchange.isHeard =
        (l ++ [⟨q, some a⟩].filter Exchange.isHeard) ++ es.filter Exchange.isHeard := by
      rw [List.append_assoc, ← List.filter_append]
      rfl
    rw [hl]
    exact .ask ⟨hw, rfl⟩ (ih _)

/-! ## Parts of a run -/

namespace Procedure

open Dialogue

/-- Whatever is answered to a part of a run, `I` holds where it is broken off, `Q` where it succeeds and
`F` where it fails. -/
def Step.Holds (w : Surroundings S) (I : S → Prop) (F : Failure → Report → S → Prop)
    (x : Step Dialogue α) (Q : α → Report → S → Prop) (r : Report) (s : S) : Prop :=
  (x.run.run r).Keeps w I
    (fun out s =>
      match out with
      | (.ok a, r) => Q a r s
      | (.error f, r) => F f r s) s

section Rules

variable {w : Surroundings S} {I : S → Prop} {F : Failure → Report → S → Prop}

theorem holds_bind {Q : β → Report → S → Prop} (x : Step Dialogue α) (f : α → Step Dialogue β)
    (r : Report) (s : S) :
    Step.Holds w I F (x >>= f) Q r s ↔
      Step.Holds w I F x (fun a r s => Step.Holds w I F (f a) Q r s) r s := by
  rw [Step.Holds, run_bind, keeps_bind]
  refine ⟨fun h => h.mono ?_, fun h => h.mono ?_⟩
  all_goals
    intro out s hout
    obtain ⟨result, r⟩ := out
    cases result with
    | ok a => exact hout
    | error f => exact hout

theorem Step.Holds.mono {Q Q' : α → Report → S → Prop} {x : Step Dialogue α} {r : Report} {s : S}
    (h : Step.Holds w I F x Q r s) (hQ : ∀ a r s, Q a r s → Q' a r s) :
    Step.Holds w I F x Q' r s := by
  refine Keeps.mono h fun out s hs => ?_
  obtain ⟨result, r⟩ := out
  cases result with
  | ok a => exact hQ a r s hs
  | error f => exact hs

theorem holds_get {Q : Report → Report → S → Prop} (r : Report) (s : S) :
    Step.Holds w I F get Q r s ↔ Q r r s := by
  rw [Step.Holds, run_get]
  exact Iff.rfl

theorem holds_set {Q : PUnit → Report → S → Prop} (r' r : Report) (s : S) :
    Step.Holds w I F (set r') Q r s ↔ Q ⟨⟩ r' s := by
  rw [Step.Holds, run_set]
  exact Iff.rfl

theorem holds_modify {Q : PUnit → Report → S → Prop} (f : Report → Report) (r : Report) (s : S) :
    Step.Holds w I F (modify f) Q r s ↔ Q ⟨⟩ (f r) s := by
  rw [Step.Holds, run_modify]
  exact Iff.rfl

theorem holds_call {Q : α → Report → S → Prop} (d : Dialogue α) (r : Report) (s : S) :
    Step.Holds w I F (call d) Q r s ↔ d.Keeps w I (fun a s => Q a r s) s := by
  rw [Step.Holds, run_call, keeps_bind]
  exact Iff.rfl

/-- What is kept of an operation that may fail. -/
def Tried {T : Type} (wrap : ε → Failure) (Q : α → T → Prop) (G : Failure → T → Prop) :
    Except ε α → T → Prop
  | .ok a, s => Q a s
  | .error e, s => G (wrap e) s

theorem holds_attempt {Q : α → Report → S → Prop} (wrap : ε → Failure) (d : Dialogue (Except ε α))
    (r : Report) (s : S) :
    Step.Holds w I F (attempt wrap d) Q r s ↔
      d.Keeps w I (Tried wrap (fun a s => Q a r s) (fun f s => F f r s)) s := by
  rw [attempt, holds_bind, holds_call]
  refine ⟨fun h => h.mono ?_, fun h => h.mono ?_⟩
  all_goals
    intro result s hs
    cases result with
    | ok a => exact hs
    | error e => exact hs

theorem keeps_quiet (hw : w.Quiet) {q : Question} (hq : q.isQuiet = true) {Q : q.Answer → S → Prop}
    {s : S} (hI : I s) (h : ∀ a, w s ⟨q, some a⟩ s → Q a s) : (ask q ends).Keeps w I Q s := by
  refine ⟨fun s' hs => ?_, fun a s' hs => ?_⟩
  · rw [hw s q none s' hq hs]
    exact hI
  · obtain rfl := hw s q (some a) s' hq hs
    exact h a hs

theorem keeps_anyway {q : Question} {Q : q.Answer → S → Prop} {s : S} (hQ : ∀ a s, Q a s) :
    (ask q ends).Keeps w (fun _ => True) Q s :=
  ⟨fun _ _ => trivial, fun a s' _ => hQ a s'⟩

/-! ## Rules for the stages -/

variable {environment packages : String}

/-- A stage is noted in the log and in the report. -/
def Reached (w : Surroundings S) (I : S → Prop) (stage : Stage) (outcome : Outcome)
    (note : Option String) (Q : Report → S → Prop) (r : Report) (s : S) : Prop :=
  (ask (.log .debug (transition r stage outcome)) ends).Keeps w I
    (fun _ s => Q (r.record stage outcome note) s) s

/-- The progress with a stage completed is stored, at any time that the clock may give. -/
def Completed (w : Surroundings S) (I : S → Prop) (F : Failure → Report → S → Prop) (plan : Plan)
    (progress : Progress) (stage : Stage) (Q : Progress → Report → S → Prop) (r : Report) (s : S) :
    Prop :=
  I s ∧ ∀ t, w s ⟨.now, some t⟩ s → (ask (.store plan.checkout (progress.mark stage t)) ends).Keeps w I
    (Tried .io (fun _ s => Q (progress.mark stage t) r s) (fun f s => F f r s)) s

/-- An operation is carried out for a stage, which is then noted and stored. -/
def Advances (w : Surroundings S) (I : S → Prop) (F : Failure → Report → S → Prop) (plan : Plan)
    (progress : Progress) (stage : Stage) (op : Dialogue (Except ε Unit)) (wrap : ε → Failure)
    (Q : Progress → Report → S → Prop) (r : Report) (s : S) : Prop :=
  op.Keeps w I
    (Tried wrap
      (fun _ s => Reached w I stage .ran none (Completed w I F plan progress stage Q) r s)
      (fun f s => F f r s)) s

theorem Reached.mono {Q Q' : Report → S → Prop} {stage : Stage} {outcome : Outcome}
    {note : Option String} {r : Report} {s : S} (h : Reached w I stage outcome note Q r s)
    (hQ : ∀ r s, Q r s → Q' r s) : Reached w I stage outcome note Q' r s :=
  Keeps.mono h fun _ s hs => hQ _ s hs

theorem reached_anyway {Q : Report → S → Prop} {stage : Stage} {outcome : Outcome} {note : Option String}
    {r : Report} {s : S} (hQ : ∀ s, Q (r.record stage outcome note) s) :
    Reached w (fun _ => True) stage outcome note Q r s :=
  keeps_anyway fun _ s => hQ s

theorem Completed.mono {Q Q' : Progress → Report → S → Prop} {plan : Plan} {progress : Progress}
    {stage : Stage} {r : Report} {s : S} (h : Completed w I F plan progress stage Q r s)
    (hQ : ∀ p r s, Q p r s → Q' p r s) : Completed w I F plan progress stage Q' r s := by
  refine ⟨h.1, fun t ht => Keeps.mono (h.2 t ht) fun result s hs => ?_⟩
  cases result with
  | ok a => exact hQ _ _ _ hs
  | error e => exact hs

theorem holds_reach {Q : Unit → Report → S → Prop} {stage : Stage} {outcome : Outcome}
    {note : Option String} {r : Report} {s : S} (h : Reached w I stage outcome note (Q ()) r s) :
    Step.Holds w I F (reach (.asked environment packages) stage outcome note) Q r s := by
  rw [reach, holds_bind, holds_get, holds_bind, holds_call]
  refine Keeps.mono h fun _ s hs => ?_
  rw [holds_set]
  exact hs

theorem holds_complete (hw : w.Quiet) {Q : Progress → Report → S → Prop} {plan : Plan}
    {progress : Progress} {stage : Stage} {r : Report} {s : S}
    (h : Completed w I F plan progress stage Q r s) :
    Step.Holds w I F (complete (.asked environment packages) plan progress stage) Q r s := by
  rw [complete, holds_bind, holds_call]
  refine keeps_quiet hw rfl h.1 fun t ht => ?_
  rw [holds_bind, holds_attempt]
  exact h.2 t ht

theorem holds_advance (hw : w.Quiet) {Q : Progress → Report → S → Prop} {plan : Plan}
    {progress : Progress} {stage : Stage} {op : Dialogue (Except ε Unit)} {wrap : ε → Failure}
    {r : Report} {s : S} (h : Advances w I F plan progress stage op wrap Q r s) :
    Step.Holds w I F
      (do attempt wrap op
          reach (.asked environment packages) stage .ran none
          complete (.asked environment packages) plan progress stage) Q r s := by
  rw [holds_bind, holds_attempt]
  refine Keeps.mono h fun result s hs => ?_
  cases result with
  | error e => exact hs
  | ok a =>
    change Step.Holds w I F _ Q r s
    rw [holds_bind]
    refine holds_reach (hs.mono fun r s hs => ?_)
    exact holds_complete hw hs

/-- An operation that asks one question; `made` is the exchange with its result. -/
structure Asks (op : Dialogue (Except ε Unit)) (q : Question) (made : Except ε Unit → Exchange) : Prop where
  question : ∀ result, (made result).question = q
  keeps : ∀ {S : Type} {w : Surroundings S} {I : S → Prop} {Q : Except ε Unit → S → Prop} {s : S},
    (∀ s', w s ⟨q, none⟩ s' → I s') → (∀ result s', w s (made result) s' → Q result s') → op.Keeps w I Q s

theorem asks_checkout (repo : Path) (revision : String) :
    Asks (ask (.checkout repo revision) ends) (.checkout repo revision)
      fun result => ⟨.checkout repo revision, some result⟩ :=
  ⟨fun _ => rfl, fun hbroken hresult => ⟨hbroken, hresult⟩⟩

theorem asks_pull (repo : Path) :
    Asks (ask (.pull repo) ends) (.pull repo) fun result => ⟨.pull repo, some result⟩ :=
  ⟨fun _ => rfl, fun hbroken hresult => ⟨hbroken, hresult⟩⟩

theorem asks_setupEnvironment :
    Asks (ask .setupEnvironment ends) .setupEnvironment fun result => ⟨.setupEnvironment, some result⟩ :=
  ⟨fun _ => rfl, fun hbroken hresult => ⟨hbroken, hresult⟩⟩

theorem asks_setupPackages :
    Asks (ask .setupPackages ends) .setupPackages fun result => ⟨.setupPackages, some result⟩ :=
  ⟨fun _ => rfl, fun hbroken hresult => ⟨hbroken, hresult⟩⟩

theorem Asks.advances {Q : Progress → Report → S → Prop} {plan : Plan} {progress : Progress}
    {stage : Stage} {op : Dialogue (Except ε Unit)} {q : Question} {made : Except ε Unit → Exchange}
    {wrap : ε → Failure} {r : Report} {s : S} (hop : Asks op q made)
    (hbroken : ∀ s', w s ⟨q, none⟩ s' → I s') (hfailed : ∀ e s', w s (made (.error e)) s' → F (wrap e) r s')
    (hok : ∀ s', w s (made (.ok ())) s' →
      Reached w I stage .ran none (Completed w I F plan progress stage Q) r s') :
    Advances w I F plan progress stage op wrap Q r s := by
  refine hop.keeps hbroken fun result s' hs => ?_
  cases result with
  | ok a => exact hok s' hs
  | error e => exact hfailed e s' hs

theorem holds_startOver (hw : w.Quiet) {Q : Progress → Report → S → Prop} {plan : Plan} {r : Report}
    {s : S} (hI : I s) (h : ∀ t, Q (.fresh plan.targetLabel t) r s) :
    Step.Holds w I F (startOver (.asked environment packages) plan) Q r s := by
  rw [startOver, holds_bind, holds_call]
  exact keeps_quiet hw rfl hI fun t _ => h t

/-- The progress that a run goes on from: what was loaded if it has the run's target, else nothing. -/
def TakesUp (I : S → Prop) (plan : Plan) (Q : Progress → Report → S → Prop) (r : Report) :
    Option Progress → S → Prop
  | none, s => I s ∧ ∀ t, Q (.fresh plan.targetLabel t) r s
  | some progress, s =>
    if progress.target = plan.targetLabel then Q progress r s
    else I s ∧ ∀ t, Q (.fresh plan.targetLabel t) r s

theorem TakesUp.mono {Q Q' : Progress → Report → S → Prop} {plan : Plan} {r : Report} {found : Option Progress} {s : S}
    (h : TakesUp I plan Q r found s) (hQ : ∀ p, Q p r s → Q' p r s) : TakesUp I plan Q' r found s := by
  cases found with
  | none => exact ⟨h.1, fun t => hQ _ (h.2 t)⟩
  | some p =>
    rw [TakesUp] at h ⊢
    split
    · next htarget => exact hQ p (by rwa [if_pos htarget] at h)
    · next htarget =>
      rw [if_neg htarget] at h
      exact ⟨h.1, fun t => hQ _ (h.2 t)⟩

theorem holds_takeUp (hw : w.Quiet) {Q : Progress → Report → S → Prop} {plan : Plan} {r : Report}
    {s : S} (h : (ask (.load plan.checkout) ends).Keeps w I (TakesUp I plan Q r) s) :
    Step.Holds w I F (takeUp (.asked environment packages) plan) Q r s := by
  rw [takeUp, holds_bind, holds_call]
  refine Keeps.mono h fun loaded s hs => ?_
  cases loaded with
  | none => exact holds_startOver hw hs.1 hs.2
  | some progress =>
    dsimp only
    rw [TakesUp] at hs
    by_cases ht : progress.target = plan.targetLabel
    · rw [if_pos ht] at hs
      rw [if_pos ht]
      exact hs
    · rw [if_neg ht] at hs
      rw [if_neg ht, holds_bind, holds_call]
      exact keeps_quiet hw rfl hs.1 fun _ _ => holds_startOver hw hs.1 hs.2

/-- A checkout that is there is taken over if the plan allows it and it is a work tree. -/
def Resumes (w : Surroundings S) (I : S → Prop) (F : Failure → Report → S → Prop) (plan : Plan)
    (Q : Progress → Report → S → Prop) (r : Report) (s : S) : Prop :=
  if plan.rerunPolicy = .fail then ∀ message, F (refused message) r s
  else (ask (.isWorkTree plan.checkout) ends).Keeps w I
    (fun isTree s =>
      if isTree = true then
        I s ∧ Reached w I .cloned .skipped (some "existing checkout")
          (fun r s => (ask (.load plan.checkout) ends).Keeps w I (TakesUp I plan Q r) s) r s
      else ∀ message, F (refused message) r s) s

/-- A checkout that is not there is cloned. -/
def Clones (w : Surroundings S) (I : S → Prop) (F : Failure → Report → S → Prop) (plan : Plan)
    (Q : Progress → Report → S → Prop) (r : Report) (s : S) : Prop :=
  (ask (.clone plan.repository plan.checkout) ends).Keeps w I
    (Tried .acquisition
      (fun _ s => Reached w I .cloned .ran none
        (fun r s => I s ∧ ∀ t, Q (.fresh plan.targetLabel t) r s) r s)
      (fun f s => F f r s)) s

theorem holds_resume (hw : w.Quiet) {Q : Progress → Report → S → Prop} {plan : Plan} {r : Report}
    {s : S} (place : String) (h : Resumes w I F plan Q r s) :
    Step.Holds w I F
      (do if plan.rerunPolicy = .fail then
            throw (refused s!"{place} already exists (pass --resume to continue a previous run)")
          if !(← call ((Collaborators.asked environment packages).source.isWorkTree plan.checkout)) then
            throw (refused s!"{place} exists but is not a git work tree")
          call ((Collaborators.asked environment packages).workspace.log .info
            s!"Resuming in existing checkout {place}")
          reach (.asked environment packages) .cloned .skipped (some "existing checkout")
          takeUp (.asked environment packages) plan) Q r s := by
  rw [Resumes] at h
  by_cases hfail : plan.rerunPolicy = .fail
  · rw [if_pos hfail] at h
    simp only [hfail, if_true]
    exact h _
  · rw [if_neg hfail] at h
    simp only [hfail, if_false]
    rw [holds_bind, holds_call]
    refine Keeps.mono h fun isTree s hs => ?_
    cases isTree with
    | false => exact hs _
    | true =>
      rw [if_pos rfl] at hs
      simp only [Bool.not_true, Bool.false_eq_true, if_false]
      rw [holds_bind, holds_call]
      refine keeps_quiet hw rfl hs.1 fun _ _ => ?_
      rw [holds_bind]
      refine holds_reach (hs.2.mono fun r s hs => ?_)
      exact holds_takeUp hw hs

theorem holds_acquire (hw : w.Quiet) {Q : Progress → Report → S → Prop} {plan : Plan} {r : Report}
    {s : S} (h : (ask (.present plan.checkout) ends).Keeps w I
      (fun there s => if there = true then Resumes w I F plan Q r s
        else I s ∧ Clones w I F plan Q r s) s) :
    Step.Holds w I F (acquire (.asked environment packages) plan) Q r s := by
  rw [acquire, holds_bind, holds_call]
  refine Keeps.mono h fun there s hs => ?_
  cases there with
  | true =>
    exact holds_resume hw plan.checkout.text hs
  | false =>
    simp only [Bool.false_eq_true, if_false] at hs ⊢
    rw [holds_bind, holds_call]
    refine keeps_quiet hw rfl hs.1 fun _ _ => ?_
    rw [holds_bind, holds_attempt]
    refine Keeps.mono hs.2 fun result s hs => ?_
    cases result with
    | error e => exact hs
    | ok a =>
      change Step.Holds w I F _ Q r s
      rw [holds_bind]
      rw [Tried] at hs
      refine holds_reach (hs.mono fun r s hs => ?_)
      exact holds_startOver hw hs.1 hs.2

/-- An acquisition fails as one, or the checkout is there and its stage is noted. -/
theorem holds_acquire_anyway (hw : w.Quiet) {Q : Progress → Report → S → Prop} {plan : Plan} {r : Report} {s : S}
    (hfailed : ∀ e s, F (.acquisition e) r s)
    (hdone : ∀ p outcome note s, Q p (r.record .cloned outcome note) s) :
    Step.Holds w (fun _ => True) F (acquire (.asked environment packages) plan) Q r s := by
  refine holds_acquire hw (keeps_anyway fun there s => ?_)
  split
  · rw [Resumes]
    split
    · exact fun _ => hfailed _ _
    · refine keeps_anyway fun isTree s => ?_
      split
      · refine ⟨trivial, reached_anyway fun s => keeps_anyway fun loaded s => ?_⟩
        cases loaded with
        | none => exact ⟨trivial, fun _ => hdone ..⟩
        | some progress =>
          rw [TakesUp]
          split
          · exact hdone ..
          · exact ⟨trivial, fun _ => hdone ..⟩
      · exact fun _ => hfailed _ _
  · refine ⟨trivial, keeps_anyway fun result s => ?_⟩
    cases result with
    | ok u =>
      rw [Tried]
      exact reached_anyway fun _ => And.intro trivial fun _ => hdone ..
    | error e => exact hfailed e s

theorem holds_pin (hw : w.Quiet) {Q : Progress → Report → S → Prop} {plan : Plan}
    {progress : Progress} {r : Report} {s : S} (hI : I s)
    (hskip : ∀ note, pinnedRevision plan = none ∨ progress.isComplete .pinned = true →
      Reached w I .pinned .skipped note (Q progress) r s)
    (hrun : ∀ revision, pinnedRevision plan = some revision → progress.isComplete .pinned = false →
      Advances w I F plan progress .pinned (ask (.checkout plan.checkout revision) ends)
        (.revision revision) Q r s) :
    Step.Holds w I F (pin (.asked environment packages) plan progress) Q r s := by
  rw [pin]
  cases hrev : pinnedRevision plan with
  | none =>
    dsimp only
    rw [holds_bind]
    exact holds_reach (hskip _ (.inl hrev))
  | some revision =>
    dsimp only
    cases hdone : progress.isComplete .pinned with
    | true =>
      simp only [if_true]
      rw [holds_bind]
      exact holds_reach (hskip _ (.inr hdone))
    | false =>
      simp only [Bool.false_eq_true, if_false]
      rw [holds_bind, holds_call]
      refine keeps_quiet hw rfl hI fun _ _ => ?_
      exact holds_advance hw (hrun revision hrev hdone)

theorem holds_sync (hw : w.Quiet) {Q : Progress → Report → S → Prop} {plan : Plan}
    {progress : Progress} {r : Report} {s : S} (hI : I s)
    (hskip : ∀ note, plan.syncPolicy = .pinned ∨ progress.isComplete .synced = true →
      Reached w I .synced .skipped note (Q progress) r s)
    (hrun : plan.syncPolicy ≠ .pinned → progress.isComplete .synced = false →
      Advances w I F plan progress .synced (ask (.pull plan.checkout) ends) .sync Q r s) :
    Step.Holds w I F (sync (.asked environment packages) plan progress) Q r s := by
  have hrest : plan.syncPolicy ≠ .pinned → Step.Holds w I F
      (do if progress.isComplete .synced then
            reach (.asked environment packages) .synced .skipped resumedNote
            return progress
          attempt .sync ((Collaborators.asked environment packages).source.pull plan.checkout)
          reach (.asked environment packages) .synced .ran none
          complete (.asked environment packages) plan progress .synced) Q r s := by
    intro hpolicy
    cases hdone : progress.isComplete .synced with
    | true =>
      simp only [if_true]
      rw [holds_bind]
      exact holds_reach (hskip _ (.inr hdone))
    | false =>
      simp only [Bool.false_eq_true, if_false]
      exact holds_advance hw (hrun hpolicy hdone)
  rw [sync]
  cases hpolicy : plan.syncPolicy with
  | pinned =>
    simp only [if_true]
    rw [holds_bind]
    exact holds_reach (hskip _ (.inl hpolicy))
  | latest => exact hrest (by rw [hpolicy]; decide)
  | pinThenSync =>
    simp only [reduceCtorEq, if_false, if_true]
    rw [holds_bind, holds_call]
    exact keeps_quiet hw rfl hI fun _ _ => hrest (by rw [hpolicy]; decide)

theorem holds_provision (hw : w.Quiet) {Q : Progress → Report → S → Prop} {plan : Plan}
    {progress : Progress} {r : Report} {s : S} {p : Provisioner Dialogue} {stage : Stage}
    {wrap : ProvisionFailure → Failure} {title : String} (hI : I s)
    (hskip : ∀ note, progress.isComplete stage = true →
      Reached w I stage .skipped note (Q progress) r s)
    (hrun : progress.isComplete stage = false →
      Advances w I F plan progress stage p.setup wrap Q r s) :
    Step.Holds w I F (provision (.asked environment packages) plan progress p stage wrap title) Q r s := by
  rw [provision]
  cases hdone : progress.isComplete stage with
  | true =>
    simp only [if_true]
    rw [holds_bind]
    exact holds_reach (hskip _ hdone)
  | false =>
    simp only [Bool.false_eq_true, if_false]
    rw [holds_bind, holds_call]
    refine keeps_quiet hw rfl hI fun _ _ => ?_
    exact holds_advance hw (hrun hdone)

/-- The report with what the operator has to know. -/
def guided (plan : Plan) (applied suggested : Option Path) (r : Report) : Report :=
  { r with
    guidance := some
      { configFile := plan.disassemblerConfigPath, key := plan.disassemblerKey, applied, suggested } }

theorem holds_guide {Q : Unit → Report → S → Prop} {plan : Plan} {applied suggested : Option Path}
    {r : Report} {s : S} (h : Q () (guided plan applied suggested r) s) :
    Step.Holds w I F (guide plan applied suggested) Q r s := by
  rw [guide, holds_modify]
  exact h

/-- What follows an attempt to write the tool's path. -/
def Applied (w : Surroundings S) (I : S → Prop) (F : Failure → Report → S → Prop) (plan : Plan)
    (progress : Progress) (tool : Path) (Q : Report → S → Prop) (r : Report) :
    Except ConfigureFailure Bool → S → Prop
  | .ok _, s => Reached w I .configured .ran none
      (fun r s => Completed w I F plan progress .configured (fun _ r s => Q r s)
        (guided plan (some tool) none r) s) r s
  | .error failure, s =>
    if (isForgiven failure && plan.disassemblerDetected) = true then
      I s ∧ ∀ note, Reached w I .configured .skipped note
        (fun r s => Q (guided plan none (some tool) r) s) r s
    else F (.configure failure) r s

theorem holds_configure (hw : w.Quiet) {Q : Unit → Report → S → Prop} {plan : Plan}
    {progress : Progress} {r : Report} {s : S}
    (hnone : ∀ note, plan.disassembler = none →
      Reached w I .configured .skipped note (fun r s => Q () (guided plan none none r) s) r s)
    (hsome : ∀ tool, plan.disassembler = some tool →
      (ask (.applySetting plan.disassemblerConfigPath plan.disassemblerKey tool) ends).Keeps w I
        (Applied w I F plan progress tool (Q ()) r) s) :
    Step.Holds w I F (configure (.asked environment packages) plan progress) Q r s := by
  rw [configure]
  cases htool : plan.disassembler with
  | none =>
    dsimp only
    rw [holds_bind]
    refine holds_reach ((hnone _ htool).mono fun r s hs => ?_)
    exact holds_guide hs
  | some tool =>
    dsimp only
    rw [holds_bind, holds_call]
    refine Keeps.mono (hsome tool htool) fun result s hs => ?_
    cases result with
    | ok changed =>
      dsimp only
      rw [Applied] at hs
      rw [holds_bind]
      refine holds_reach (hs.mono fun r s hs => ?_)
      rw [holds_bind]
      refine holds_guide ?_
      rw [holds_bind]
      exact holds_complete hw hs
    | error failure =>
      dsimp only
      rw [Applied] at hs
      by_cases hf : (isForgiven failure && plan.disassemblerDetected) = true
      · rw [if_pos hf] at hs
        rw [if_pos hf, holds_bind, holds_call]
        refine keeps_quiet hw rfl hs.1 fun _ _ => ?_
        rw [holds_bind]
        refine holds_reach ((hs.2 _).mono fun r s hs => ?_)
        exact holds_guide hs
      · rw [if_neg hf] at hs
        rw [if_neg hf]
        exact hs

/-- What comes before the last stage is kept by conditions that each stage leads on, `A₁` after the first to
`A₅` before the last. -/
theorem holds_prepare (hw : w.Quiet) {A₁ A₂ A₃ A₄ A₅ : Progress → Report → S → Prop} {plan : Plan}
    {r : Report} {s : S}
    (hbegin : (ask .ensureAvailable ends).Keeps w I
      (Tried .acquisition
        (fun _ s => Step.Holds w I F (acquire (.asked environment packages) plan)
          (fun p r s => Completed w I F plan p .cloned A₁ r s) r s)
        (fun f s => F f r s)) s)
    (hpin : ∀ p r s, A₁ p r s → Step.Holds w I F (pin (.asked environment packages) plan p) A₂ r s)
    (hsync : ∀ p r s, A₂ p r s → Step.Holds w I F (sync (.asked environment packages) plan p) A₃ r s)
    (henv : ∀ p r s title, A₃ p r s → Step.Holds w I F
      (provision (.asked environment packages) plan p ⟨environment, ask .setupEnvironment ends⟩
        .envReady .environmentSetup title) A₄ r s)
    (hpkgs : ∀ p r s title, A₄ p r s → Step.Holds w I F
      (provision (.asked environment packages) plan p ⟨packages, ask .setupPackages ends⟩
        .pkgsReady .packageInstall title) A₅ r s) :
    Step.Holds w I F (prepare (.asked environment packages) plan) A₅ r s := by
  rw [prepare, holds_bind, holds_attempt]
  refine Keeps.mono hbegin fun result s hs => ?_
  cases result with
  | error e => exact hs
  | ok a =>
    change Step.Holds w I F _ A₅ r s
    rw [holds_bind]
    refine Step.Holds.mono hs fun p r s h => ?_
    rw [holds_bind]
    refine (holds_complete hw h).mono fun p r s h => ?_
    rw [holds_bind]
    refine (hpin p r s h).mono fun p r s h => ?_
    rw [holds_bind]
    refine (hsync p r s h).mono fun p r s h => ?_
    rw [holds_bind]
    refine (henv p r s _ h).mono fun p r s h => ?_
    exact hpkgs p r s _ h

/-- A run is kept by conditions that each stage leads on, `A₁` after the first to `A₅` before the last. -/
theorem holds_stages (hw : w.Quiet) {A₁ A₂ A₃ A₄ A₅ : Progress → Report → S → Prop}
    {Q : Unit → Report → S → Prop} {plan : Plan} {r : Report} {s : S}
    (hbegin : (ask .ensureAvailable ends).Keeps w I
      (Tried .acquisition
        (fun _ s => Step.Holds w I F (acquire (.asked environment packages) plan)
          (fun p r s => Completed w I F plan p .cloned A₁ r s) r s)
        (fun f s => F f r s)) s)
    (hpin : ∀ p r s, A₁ p r s → Step.Holds w I F (pin (.asked environment packages) plan p) A₂ r s)
    (hsync : ∀ p r s, A₂ p r s → Step.Holds w I F (sync (.asked environment packages) plan p) A₃ r s)
    (henv : ∀ p r s title, A₃ p r s → Step.Holds w I F
      (provision (.asked environment packages) plan p ⟨environment, ask .setupEnvironment ends⟩
        .envReady .environmentSetup title) A₄ r s)
    (hpkgs : ∀ p r s title, A₄ p r s → Step.Holds w I F
      (provision (.asked environment packages) plan p ⟨packages, ask .setupPackages ends⟩
        .pkgsReady .packageInstall title) A₅ r s)
    (hconf : ∀ p r s, A₅ p r s →
      Step.Holds w I F (configure (.asked environment packages) plan p) Q r s) :
    Step.Holds w I F (stages (.asked environment packages) plan) Q r s := by
  rw [stages_eq, holds_bind]
  exact (holds_prepare hw hbegin hpin hsync henv hpkgs).mono hconf

/-- The end of a run that succeeded: the commit is looked up and the last stage is noted. -/
def Finishes (w : Surroundings S) (I : S → Prop) (plan : Plan)
    (Q : Except Failure Unit × Report → S → Prop) (r : Report) (s : S) : Prop :=
  (ask (.headRevision plan.checkout) ends).Keeps w I
    (fun head s => (ask (.log .debug (transition r .done .ran)) ends).Keeps w I
      (fun _ s => Q (.ok (), { r with head }.record .done .ran none) s) s) s

theorem keeps_run {Q : Except Failure Unit × Report → S → Prop} {plan : Plan} {r : Report} {s : S}
    (h : Step.Holds w I (fun f r s => Q (.error f, r.fail f) s) (stages (.asked environment packages) plan)
      (fun _ r s => Finishes w I plan Q r s) r s) :
    (run (.asked environment packages) plan r).Keeps w I Q s := by
  rw [run, keeps_bind]
  refine Keeps.mono h fun out s hs => ?_
  obtain ⟨result, r⟩ := out
  cases result with
  | ok a => exact hs
  | error f => exact hs

end Rules

end Procedure

/-! ## Runs that are written down -/

variable {m : Type → Type} [Monad m] {σ : Type}

/-- Collaborators that write down every exchange that is not quiet. -/
def Collaborators.logged (c : Collaborators m) : Collaborators (StateT (List Exchange) m) :=
  .ofAnswers c.environment.name c.packages.name fun q => do
    let a ← StateT.lift (c.answer q)
    modify (· ++ [⟨q, some a⟩].filter Exchange.isHeard)
    return a

/-- Surroundings that do nothing but write down. -/
def Surroundings.notes : Surroundings (List Exchange) := fun l e l' =>
  l' = l ++ [e].filter Exchange.isHeard

theorem Surroundings.quiet_notes : Surroundings.notes.Quiet := by
  intro l q a l' hq h
  rw [h]
  simp [Exchange.isHeard, hq]

/-- A dialogue that is written down takes the course that it takes anyway, and what is written down is
that course. -/
theorem Dialogue.hold_logged (c : Collaborators (StateM σ)) (d : Dialogue α) (l : List Exchange)
    (s : σ) :
    ∃ a l' s' es, (d.hold c).run s = (a, s') ∧ ((d.hold c.logged).run l).run s = ((a, l'), s') ∧
      d.Plays .notes l es (some a) l' := by
  induction d generalizing l s with
  | ends a => exact ⟨a, l, s, [], rfl, rfl, .ends a l⟩
  | ask q next ih =>
    obtain ⟨a, l', s', es, h₁, h₂, h₃⟩ :=
      ih ((c.answer q).run s).1 (l ++ [⟨q, some ((c.answer q).run s).1⟩].filter Exchange.isHeard)
        ((c.answer q).run s).2
    refine ⟨a, l', s', _, h₁, ?_, .ask rfl h₃⟩
    rw [Dialogue.hold, Collaborators.logged, Collaborators.answer_ofAnswers]
    exact h₂

/-- What the dialogue of a run keeps holds of every run, and of what is written down of it. -/
theorem Procedure.run_logged {Q : Except Failure Unit × Report → List Exchange → Prop} {plan : Plan}
    (h : ∀ environment packages, (run (.asked environment packages) plan (.ofPlan plan)).Keeps .notes
      (fun _ => True) Q [])
    (c : Collaborators (StateM σ)) (s : σ) :
    ∃ result report es s', (run c plan (.ofPlan plan)).run s = ((result, report), s') ∧
      ((run c.logged plan (.ofPlan plan)).run []).run s = (((result, report), es), s') ∧
      Q (result, report) es := by
  obtain ⟨out, es, s', _, h₁, h₂, course⟩ :=
    Dialogue.hold_logged c (run (questions c) plan (.ofPlan plan)) [] s
  rw [hold_run] at h₁
  rw [show questions c = questions c.logged from rfl, hold_run] at h₂
  exact ⟨out.1, out.2, es, s', h₁, h₂, (h c.environment.name c.packages.name).plays course⟩

end Bringup

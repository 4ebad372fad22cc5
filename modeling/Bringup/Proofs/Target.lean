import Bringup.Plan

/-!
# What a run aims at

A later run takes over progress if its target has the same label. The label is a bare text, so a revision
can be spelled like the label of a plan that follows the default branch.

* `SameTarget`: two plans aim at the same.
* `SpelledLike`: a plan is pinned to a revision that reads like the target of another policy.
* `targetLabel_eq_iff`: the labels of two plans are the same in these cases and in no other.
-/

namespace Bringup.Plan

set_option autoImplicit false

/-- The plans have the same policy and, unless it is to follow the default branch, the same revision. -/
def SameTarget (p q : Plan) : Prop :=
  p.syncPolicy = q.syncPolicy ∧ (p.syncPolicy ≠ .latest → p.revision = q.revision)

/-- The plan is pinned to a revision that is spelled like the target of a plan with another policy. -/
def SpelledLike (p q : Plan) : Prop :=
  p.syncPolicy = .pinned ∧
    (q.syncPolicy = .latest ∧ p.revision = some "latest" ∨
      q.syncPolicy = .pinThenSync ∧ ∃ rev, q.revision = some rev ∧ p.revision = some (rev ++ "+sync"))

/-- The three kinds of targets with their labels. -/
inductive Aim : SyncPolicy → Option String → String → Prop
  | latest (revision : Option String) : Aim .latest revision "latest"
  | pinned (rev : String) : Aim .pinned (some rev) rev
  | pinThenSync (rev : String) : Aim .pinThenSync (some rev) (rev ++ "+sync")

section

variable {settings settings' : Settings} {workdir workdir' : Path} {p q : Plan}

/-- What a plan takes from the settings. It has a revision if it needs one. -/
theorem ofSettings_ok (h : ofSettings settings workdir = .ok p) :
    (p.syncPolicy ≠ .latest → p.revision.isSome) ∧ p.syncPolicy = settings.source.syncPolicy ∧
      p.revision = revisionOf settings.source ∧ p.checkout = workdir.child settings.source.checkoutDir := by
  rw [ofSettings] at h
  split at h
  · cases h
  · next hrevision =>
    split at h
    · cases h
    · split at h
      · cases h
      · cases h
        refine ⟨fun hpolicy => ?_, rfl, rfl, rfl⟩
        cases hrev : revisionOf settings.source with
        | some rev => rfl
        | none => exact absurd ⟨by rw [hrev]; rfl, hpolicy⟩ hrevision

/-- The revision of a plan is the one of the settings without the blanks around it. -/
theorem revision_eq_trim {source : SourceSettings} {rev : String} (h : revisionOf source = some rev) :
    ∃ given, source.revision = some given ∧ Text.trim given = rev := by
  rw [revisionOf, Option.filter_eq_some_iff, Option.map_eq_some_iff] at h
  exact h.1

theorem aim (h : ofSettings settings workdir = .ok p) : Aim p.syncPolicy p.revision p.targetLabel := by
  obtain ⟨hsome, _⟩ := ofSettings_ok h
  rw [targetLabel]
  cases hpolicy : p.syncPolicy with
  | latest => exact .latest _
  | pinned =>
    obtain ⟨rev, hrev⟩ := Option.isSome_iff_exists.mp (hsome (by rw [hpolicy]; nofun))
    rw [hrev]
    exact .pinned rev
  | pinThenSync =>
    obtain ⟨rev, hrev⟩ := Option.isSome_iff_exists.mp (hsome (by rw [hpolicy]; nofun))
    rw [hrev]
    exact .pinThenSync rev

theorem append_sync_ne_latest (rev : String) : rev ++ "+sync" ≠ "latest" := by
  intro h
  have hlast := congrArg (fun s : String => s.toList.getLast?) h
  simp at hlast

/-- The nine pairs of policies. -/
theorem label_eq_iff_of_aim (hp : Aim p.syncPolicy p.revision p.targetLabel)
    (hq : Aim q.syncPolicy q.revision q.targetLabel) :
    p.targetLabel = q.targetLabel ↔ p.SameTarget q ∨ p.SpelledLike q ∨ q.SpelledLike p := by
  unfold SameTarget SpelledLike
  generalize p.syncPolicy = policy, p.revision = revision, p.targetLabel = label at hp
  generalize q.syncPolicy = policy', q.revision = revision', q.targetLabel = label' at hq
  cases hp with
  | latest revision =>
    cases hq with
    | latest revision' => simp
    | pinned rev => simp [eq_comm]
    | pinThenSync rev => simp [(append_sync_ne_latest rev).symm]
  | pinned rev =>
    cases hq with
    | latest revision' => simp
    | pinned rev' => simp
    | pinThenSync rev' => simp
  | pinThenSync rev =>
    cases hq with
    | latest revision' => simp [append_sync_ne_latest rev]
    | pinned rev' => simp [eq_comm]
    | pinThenSync rev' => simp

theorem SpelledLike.not_sameTarget (h : p.SpelledLike q) : ¬ p.SameTarget q := by
  intro hsame
  obtain ⟨hpinned, ⟨hother, _⟩ | ⟨hother, _⟩⟩ := h
  · cases hpinned.symm.trans (hsame.1.trans hother)
  · cases hpinned.symm.trans (hsame.1.trans hother)

theorem SameTarget.symm (h : p.SameTarget q) : q.SameTarget p :=
  ⟨h.1.symm, fun hpolicy => (h.2 (h.1 ▸ hpolicy)).symm⟩

/-- The labels of two plans are the same if they aim at the same, or if one is pinned to a revision that is
spelled like the target of the other. So they tell the targets apart exactly if there is no such revision. -/
theorem targetLabel_eq_iff (hp : ofSettings settings workdir = .ok p)
    (hq : ofSettings settings' workdir' = .ok q) :
    (p.targetLabel = q.targetLabel ↔ p.SameTarget q ∨ p.SpelledLike q ∨ q.SpelledLike p) ∧
      ((p.targetLabel = q.targetLabel ↔ p.SameTarget q) ↔ ¬ p.SpelledLike q ∧ ¬ q.SpelledLike p) := by
  have hlabel := label_eq_iff_of_aim (aim hp) (aim hq)
  refine ⟨hlabel, fun hexact => ⟨fun hlike => ?_, fun hlike => ?_⟩, fun ⟨hp, hq⟩ => ?_⟩
  · exact hlike.not_sameTarget (hexact.mp (hlabel.mpr (.inr (.inl hlike))))
  · exact hlike.not_sameTarget (hexact.mp (hlabel.mpr (.inr (.inr hlike)))).symm
  · rw [hlabel, or_iff_left (not_or.mpr ⟨hp, hq⟩)]

end

/-- The plan of the default settings with a policy and a revision. -/
def withTarget (policy : SyncPolicy) (revision : Option String) : Except SettingsFailure Plan :=
  ofSettings { source := { syncPolicy := policy, revision } } ⟨"work"⟩

theorem targetLabel_eq_iff_on_trimmed_revision :
    ∃ p q, withTarget .pinThenSync (some " v1\n") = .ok p ∧ withTarget .pinned (some "v1+sync") = .ok q ∧
      p.targetLabel = q.targetLabel ∧ q.SpelledLike p ∧ ¬ p.SameTarget q ∧
      (p.targetLabel = q.targetLabel ↔ p.SameTarget q ∨ p.SpelledLike q ∨ q.SpelledLike p) := by
  have hp : withTarget .pinThenSync (some " v1\n") = .ok _ := rfl
  have hq : withTarget .pinned (some "v1+sync") = .ok _ := rfl
  refine ⟨_, _, hp, hq, by decide +kernel, ?_, ?_, (targetLabel_eq_iff hp hq).1⟩
  · exact ⟨rfl, .inr ⟨rfl, "v1", by decide +kernel, by decide +kernel⟩⟩
  · exact fun hsame => nomatch hsame.1

/-- A plan to follow the default branch and a plan that is pinned have one label. -/
theorem label_of_default_branch_is_a_revision :
    ∃ p q, withTarget .latest none = .ok p ∧ withTarget .pinned (some "latest") = .ok q ∧
      p.targetLabel = q.targetLabel ∧
      ¬ (p.targetLabel = q.targetLabel ↔
        p.syncPolicy = q.syncPolicy ∧ (p.syncPolicy ≠ .latest → p.revision = q.revision)) := by
  refine ⟨_, _, rfl, rfl, by decide +kernel, fun hiff => ?_⟩
  exact nomatch (hiff.mp (by decide +kernel)).1

end Bringup.Plan

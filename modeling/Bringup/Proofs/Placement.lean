import Bringup.Proofs.OptionWords

/-!
# The place of the command among the options

Every option may stand in front of the name of the command or after it. If no option is named by two phrases, it makes
no difference where the name stands.

A value on the command line is the one that counts, in front of a variable of the environment. But the level without
the option still checks the variable, so an empty path there refuses every line that names a command.

* `toOption_parse_line`: what a line means, by its phrases alone.
* `placements_agree`: the place of the command, the values, and which lines are accepted.
-/

namespace Bringup.CommandLine

set_option autoImplicit false

open Bringup.Text (Raw)

/-! ## Two levels and one -/

namespace Given

theorem merge_empty (g : Given) : g.merge {} = g := by
  simp [merge]

/-- The value of an option that has a variable in the environment. -/
def value? (g : Given) : Switch → Option Raw
  | .revision => g.revision.map Raw.ofText
  | .disassembler => g.disassembler.map Path.spelling
  | _ => none

/-- What giving an option changes, if its value is right. -/
def change? (value : String) : Switch → Option (Given → Given)
  | .config => (path .config value).toOption.map fun p g => { g with config := some p }
  | .workdir => (path .workdir value).toOption.map fun p g => { g with workdir := some p }
  | .revision => some fun g => { g with revision := some value }
  | .sync => (policy value).toOption.map fun p g => { g with sync := some p }
  | .resume => some fun g => { g with resume := true }
  | .disassembler => (path .disassembler value).toOption.map fun p g => { g with disassembler := some p }
  | .verbose => some fun g => { g with verbose := some (min (g.verbose.getD 0 + 1) countLimit) }
  | .quiet => some fun g => { g with quiet := true }
  | .json => some fun g => { g with json := true }
  | .help => some id
  | .version => some id

theorem put?_eq (g : Given) (s : Switch) (value : String) :
    g.put? (s, value) = if s ≠ .verbose ∧ g.has s then none else (change? value s).map fun f => f g := by
  unfold put? put
  by_cases hrepeated : s ≠ .verbose ∧ g.has s = true
  · rw [if_pos hrepeated, if_pos hrepeated]
    rfl
  · rw [if_neg hrepeated, if_neg hrepeated]
    cases s with
    | config | workdir | sync | disassembler =>
      refine (toOption_return _ _).trans ?_
      simp [change?, Function.comp_def]
    | revision | resume | verbose | quiet | json | help | version => rfl

section Change

variable {value : String} {s : Switch} {f : Given → Given} (hchange : change? value s = some f)

include hchange

theorem change_merge {outer : Given} (h : outer.has s = false) (inner : Given) :
    f (outer.merge inner) = outer.merge (f inner) := by
  cases s with
  | config | workdir | sync | disassembler =>
    obtain ⟨x, -, rfl⟩ := Option.map_eq_some_iff.mp hchange
    simp [merge]
  | verbose =>
    obtain rfl := Option.some.inj hchange
    have hnone : outer.verbose = none := by simpa [has] using h
    simp [merge, hnone]
  | revision | resume | quiet | json | help | version =>
    obtain rfl := Option.some.inj hchange
    simp [merge]

theorem change_elsewhere {t : Switch} (hne : t ≠ s) (g : Given) :
    (f g).has t = g.has t ∧ (f g).value? t = g.value? t := by
  cases s with
  | config | workdir | sync | disassembler =>
    obtain ⟨x, -, rfl⟩ := Option.map_eq_some_iff.mp hchange
    cases t <;> first | exact ⟨rfl, rfl⟩ | exact absurd rfl hne
  | revision | resume | verbose | quiet | json | help | version =>
    obtain rfl := Option.some.inj hchange
    cases t <;> first | exact ⟨rfl, rfl⟩ | exact absurd rfl hne

end Change

theorem has_merge {outer : Given} {s : Switch} (h : outer.has s = false) (inner : Given) :
    (outer.merge inner).has s = inner.has s := by
  cases s <;> simp_all [has, merge]

/-- An option that the outer level lacks can be given to the inner level, or to both together. -/
theorem put?_merge {outer : Given} {a : Switch × String} (h : outer.has a.1 = false) (inner : Given) :
    (outer.merge inner).put? a = (inner.put? a).map outer.merge := by
  obtain ⟨s, value⟩ := a
  rw [put?_eq, put?_eq, has_merge h]
  by_cases hrepeated : s ≠ .verbose ∧ inner.has s = true
  · rw [if_pos hrepeated, if_pos hrepeated]
    rfl
  · rw [if_neg hrepeated, if_neg hrepeated]
    cases hchange : change? value s with
    | none => rfl
    | some f => simp [change_merge hchange h]

theorem exists_change {g g' : Given} {s : Switch} {value : String} (hput : g.put? (s, value) = some g') :
    ¬(s ≠ .verbose ∧ g.has s = true) ∧ ∃ f, change? value s = some f ∧ f g = g' := by
  rw [put?_eq] at hput
  split at hput
  · cases hput
  · rename_i hfresh
    exact ⟨hfresh, Option.map_eq_some_iff.mp hput⟩

/-- Giving an option adds no other. -/
theorem has_of_put? {g g' : Given} {a : Switch × String} (hput : g.put? a = some g') {s : Switch} (hne : s ≠ a.1) :
    g'.has s = g.has s := by
  obtain ⟨-, f, hchange, rfl⟩ := exists_change hput
  exact (change_elsewhere hchange hne g).1

/-! One step for all lists of options or phrases. -/

theorem foldlM_merge {α : Type} {step : Given → α → Option Given} {outer : Given} {xs : List α}
    (h : ∀ x ∈ xs, ∀ inner, step (outer.merge inner) x = (step inner x).map outer.merge) (inner : Given) :
    xs.foldlM step (outer.merge inner) = (xs.foldlM step inner).map outer.merge := by
  induction xs generalizing inner with
  | nil => rfl
  | cons x xs ih =>
    have hrest := ih fun y hy => h y (List.mem_cons_of_mem _ hy)
    rw [List.foldlM_cons, List.foldlM_cons, h x List.mem_cons_self]
    cases step inner x with
    | none => rfl
    | some g => exact hrest g

theorem foldlM_keeps {α : Type} {step : Given → α → Option Given} {P : Given → Prop} {xs : List α}
    (h : ∀ x ∈ xs, ∀ g g', step g x = some g' → P g → P g') {g g' : Given} (hfold : xs.foldlM step g = some g')
    (hg : P g) : P g' := by
  induction xs generalizing g with
  | nil => exact Option.some.inj hfold ▸ hg
  | cons x xs ih =>
    rw [List.foldlM_cons] at hfold
    obtain ⟨g₁, hstep, hrest⟩ := Option.bind_eq_some_iff.mp hfold
    exact ih (fun y hy => h y (List.mem_cons_of_mem _ hy)) hrest (h x List.mem_cons_self g g₁ hstep hg)

theorem fst_mem_options {p : Phrase} {a : Switch × String} (h : a ∈ p.assignments) : a.1 ∈ p.options := by
  simp only [Phrase.assignments, List.mem_append, List.mem_map, List.mem_singleton] at h
  rcases h with ⟨s, hs, rfl⟩ | rfl
  · exact List.mem_append_left _ hs
  · exact List.mem_append_right _ List.mem_cons_self

theorem putAll?_of_take? {g g' : Given} {p : Phrase} (h : g.take? p = some g') :
    g.putAll? p.assignments = some g' := by
  unfold take? at h
  split at h
  · exact h
  · cases h

theorem take?_merge {outer : Given} {p : Phrase} (h : ∀ s ∈ p.options, outer.has s = false) (inner : Given) :
    (outer.merge inner).take? p = (inner.take? p).map outer.merge := by
  unfold take?
  split
  · exact foldlM_merge (fun a ha inner => put?_merge (h a.1 (fst_mem_options ha)) inner) inner
  · rfl

theorem takeAll?_merge {outer : Given} {ps : List Phrase} (h : ∀ p ∈ ps, ∀ s ∈ p.options, outer.has s = false)
    (inner : Given) : (outer.merge inner).takeAll? ps = (inner.takeAll? ps).map outer.merge :=
  foldlM_merge (fun p hp inner => take?_merge (h p hp) inner) inner

theorem has_takeAll? {ps : List Phrase} {s : Switch} (h : ∀ p ∈ ps, s ∉ p.options) {g : Given}
    (htake : takeAll? {} ps = some g) : g.has s = false := by
  have hstart : Given.has {} s = false := by cases s <;> rfl
  refine foldlM_keeps (P := fun g => g.has s = false) (fun p hp g₁ g₂ hp₁ hg₁ => ?_) htake hstart
  refine foldlM_keeps (P := fun g => g.has s = false) (fun a ha g₃ g₄ hput hg₃ => ?_) (putAll?_of_take? hp₁) hg₁
  have hne : s ≠ a.1 := fun heq => h p hp (heq ▸ fst_mem_options ha)
  exact (has_of_put? hput hne).trans hg₃

/-! ## Values in front of the environment -/

theorem value?_put? {g g' : Given} {s : Switch} {value : String} (hput : g.put? (s, value) = some g')
    (hs : s = .revision ∨ s = .disassembler) : g'.value? s = some ↑value := by
  obtain ⟨-, f, hchange, rfl⟩ := exists_change hput
  rcases hs with rfl | rfl
  · obtain rfl := Option.some.inj hchange
    rfl
  · obtain ⟨p, hpath, rfl⟩ := Option.map_eq_some_iff.mp hchange
    unfold path at hpath
    split at hpath
    · cases hpath
    · obtain rfl := Option.some.inj hpath
      rfl

theorem has_of_value? {g : Given} {s : Switch} {value : String} (h : g.value? s = some ↑value) :
    s ≠ .verbose ∧ g.has s = true := by
  cases s with
  | revision | disassembler =>
    obtain ⟨given, hgiven, -⟩ := Option.map_eq_some_iff.mp h
    exact ⟨by decide, Option.isSome_of_eq_some hgiven⟩
  | config | workdir | sync | resume | verbose | quiet | json | help | version => cases h

/-- A value stays as it was given. -/
theorem value?_kept {g g' : Given} {a : Switch × String} (hput : g.put? a = some g') {s : Switch} {value : String}
    (hg : g.value? s = some ↑value) : g'.value? s = some ↑value := by
  obtain ⟨hfresh, f, hchange, rfl⟩ := exists_change hput
  by_cases hs : s = a.1
  · exact absurd (hs ▸ has_of_value? hg) hfresh
  · exact (change_elsewhere hchange hs g).2.trans hg

/-- A phrase gives its option the value that is written. -/
theorem value?_take? {g g' : Given} {p : Phrase} {s : Switch} {value : String} (hgives : p.Gives s value)
    (hs : s = .revision ∨ s = .disassembler) (htake : g.take? p = some g') : g'.value? s = some ↑value := by
  have hput := putAll?_of_take? htake
  rw [Phrase.assignments, putAll?_append] at hput
  obtain ⟨g₁, -, hlast⟩ := Option.bind_eq_some_iff.mp hput
  rw [putAll?_singleton, hgives.1, hgives.2] at hlast
  exact value?_put? hlast hs

theorem value?_takeAll? {ps : List Phrase} {p : Phrase} (hp : p ∈ ps) {s : Switch} {value : String}
    (hgives : p.Gives s value) (hs : s = .revision ∨ s = .disassembler) {g g' : Given}
    (htake : g.takeAll? ps = some g') : g'.value? s = some ↑value := by
  obtain ⟨before, after, rfl⟩ := List.append_of_mem hp
  rw [takeAll?_append] at htake
  obtain ⟨g₁, -, hrest⟩ := Option.bind_eq_some_iff.mp htake
  rw [takeAll?_cons] at hrest
  obtain ⟨g₂, hphrase, hafter⟩ := Option.bind_eq_some_iff.mp hrest
  -- the later phrases keep the value, since none of their options can be given twice
  refine foldlM_keeps (P := fun g => g.value? s = some ↑value) (fun q _ g₃ g₄ hq hg₃ => ?_) hafter
    (value?_take? hgives hs hphrase)
  exact foldlM_keeps (P := fun g => g.value? s = some ↑value) (fun a _ g₅ g₆ hput hg₅ => value?_kept hput hg₅)
    (putAll?_of_take? hq) hg₃

end Given

/-! ## The whole line -/

/-- The name of a command with phrases in front of it and after it. -/
def line (before : List Phrase) (command : Command) (after : List Phrase) : List String :=
  before.flatMap Phrase.words ++ command.name :: after.flatMap Phrase.words

/-- No option is named by both phrases. -/
def Phrase.Apart (p q : Phrase) : Prop := ∀ s ∈ p.options, s ∉ q.options

instance (p q : Phrase) : Decidable (p.Apart q) := inferInstanceAs (Decidable (∀ s ∈ p.options, s ∉ q.options))

/-- The level gives a path, or the variable for it is no empty text. -/
def covered (env : Variables) (g : Given) : Bool := g.disassembler.isSome || env.disassembler != some ""

theorem toOption_finish (l : Level) (env : Variables) :
    (l.finish env).toOption = l.total.bind fun g => if covered env g then some g else none := by
  refine (l.toOption_settle_bind _).trans (congrArg _ (funext fun g => ?_))
  obtain ⟨_, _, _, _, _, given, _, _, _⟩ := g
  obtain ⟨_, fallback⟩ := env
  cases given with
  | some p => rfl
  | none =>
    cases fallback with
    | none => rfl
    | some value =>
      by_cases hempty : value = ""
      · subst hempty
        rfl
      · simp [Level.settled, covered, Given.path, hempty, bind, Except.bind, pure, Except.pure, Except.toOption]

/-- The options with those of the environment, unless the variable for the path is empty and missed. -/
def complete? (env : Variables) (command : Option Command) (levels : List Given) (g : Given) : Option Options :=
  if levels.all (covered env) then some (options command g env) else none

theorem toOption_finish_bind {β : Type} (l : Level) (env : Variables) (k : Given → Except Usage β) :
    (l.finish env >>= k).toOption = l.total.bind fun g => if covered env g then (k g).toOption else none := by
  rw [toOption_bind, toOption_finish]
  cases l.total with
  | none => rfl
  | some g => cases hg : covered env g <;> simp [hg]

theorem toOption_finish_both (outer inner : Level) (env : Variables) (command : Command) :
    (inner.finish env >>= fun i => outer.finish env >>= fun o =>
      pure (options (some command) (o.merge i) env)).toOption =
      outer.total.bind fun o => inner.total.bind fun i => complete? env (some command) [o, i] (o.merge i) := by
  simp only [toOption_finish_bind]
  cases outer.total with
  | none => cases inner.total <;> simp
  | some o =>
    cases inner.total with
    | none => rfl
    | some i => cases hi : covered env i <;> cases ho : covered env o <;> simp [hi, ho, complete?, pure, Except.pure,
        Except.toOption]

/-- What a line means, by the options that its one or two levels give. -/
theorem toOption_parse (env : Variables) (args : List String) :
    (parse env args).toOption = (Level.outcome (Level.read { command := none } args)).bind fun outer =>
      outer.2.elim (complete? env none [outer.1] outer.1) fun next =>
        (Level.outcome (Level.read { command := some next.1 } next.2)).bind fun inner =>
          complete? env (some next.1) [outer.1, inner.1] (outer.1.merge inner.1) := by
  unfold parse
  cases Level.read { command := none } args with
  | error e => rfl
  | ok result =>
    obtain ⟨outer, next⟩ := result
    rw [Level.outcome_ok, Option.bind_map]
    cases next with
    | none =>
      refine (toOption_finish_bind outer env _).trans ?_
      cases outer.total with
      | none => rfl
      | some g => simp [complete?, pure, Except.pure, Except.toOption]
    | some next =>
      obtain ⟨command, words⟩ := next
      change (Level.read { command := some command } words >>= fun inner => inner.1.finish env >>= fun i =>
        outer.finish env >>= fun o => pure (options (some command) (o.merge i) env)).toOption = _
      rw [toOption_bind]
      simp only [toOption_finish_both, Function.comp_def, Option.elim_some, Level.outcome]
      cases Level.read { command := some command } words with
      | error e => cases outer.total <;> rfl
      | ok result =>
        simp only [Except.toOption, Option.bind_some, Option.bind_map, Function.comp_def]

theorem outcome_command (g : Given) (command : Command) (words : List String) :
    Level.outcome ((Level.settled none g).read (command.name :: words)) = some (g, some (command, words)) := by
  cases command <;> rfl

theorem outcome_before {before : List Phrase} (h : ∀ p ∈ before, p.isWritten = true) (command : Command)
    (words : List String) :
    Level.outcome (Level.read { command := none } (before.flatMap Phrase.words ++ command.name :: words)) =
      (Given.takeAll? {} before).map (·, some (command, words)) := by
  refine (Level.outcome_phrases none h {} _).trans ?_
  simp only [outcome_command]
  exact (Option.map_eq_bind ..).symm

theorem outcome_last (command : Option Command) {ps : List Phrase} (h : ∀ p ∈ ps, p.isWritten = true) :
    Level.outcome (Level.read { command } (ps.flatMap Phrase.words)) = (Given.takeAll? {} ps).map (·, none) := by
  have hphrases := Level.outcome_phrases command h {} []
  rw [List.append_nil] at hphrases
  exact hphrases.trans (Option.map_eq_bind ..).symm

theorem toOption_parse_phrases (env : Variables) {ps : List Phrase} (h : ∀ p ∈ ps, p.isWritten = true) :
    (parse env (ps.flatMap Phrase.words)).toOption = (Given.takeAll? {} ps).bind fun g => complete? env none [g] g := by
  rw [toOption_parse, outcome_last none h, Option.bind_map]
  rfl

section Placement

variable (env : Variables) (command : Command) {before after : List Phrase}
  (hwritten : ∀ p ∈ before ++ after, p.isWritten = true) (honce : (before ++ after).Pairwise Phrase.Apart)

include honce in
/-- The phrases give the same to one level as to two. -/
theorem takeAll?_levels :
    Given.takeAll? {} (before ++ after) =
      (Given.takeAll? {} before).bind fun outer => (Given.takeAll? {} after).map outer.merge := by
  obtain ⟨-, -, hapart⟩ := List.pairwise_append.mp honce
  rw [Given.takeAll?_append]
  cases hbefore : Given.takeAll? {} before with
  | none => rfl
  | some outer =>
    have hfresh : ∀ q ∈ after, ∀ s ∈ q.options, outer.has s = false := fun q hq s hs =>
      Given.has_takeAll? (fun p hp hmem => hapart p hp q hq s hmem hs) hbefore
    have hmerge := Given.takeAll?_merge hfresh {}
    rw [Given.merge_empty] at hmerge
    exact hmerge

include honce in
/-- One of the levels has no path, and there an empty variable is found. -/
theorem not_covered_both {outer inner : Given} (hbefore : Given.takeAll? {} before = some outer)
    (hafter : Given.takeAll? {} after = some inner) (henv : env.disassembler = some "") :
    [outer, inner].all (covered env) = false := by
  obtain ⟨-, -, hapart⟩ := List.pairwise_append.mp honce
  have hlacks (g : Given) (hg : g.has .disassembler = false) : covered env g = false := by
    have hnone : g.disassembler.isSome = false := hg
    simp [covered, hnone, henv]
  by_cases hnamed : ∃ p ∈ before, Switch.disassembler ∈ p.options
  · obtain ⟨p, hp, hmem⟩ := hnamed
    have hinner := hlacks inner (Given.has_takeAll? (fun q hq => hapart p hp q hq _ hmem) hafter)
    simp [hinner]
  · have houter := hlacks outer (Given.has_takeAll? (fun p hp hmem => hnamed ⟨p, hp, hmem⟩) hbefore)
    simp [houter]

include hwritten honce in
/-- What a line with a command means does not depend on the place of the command. -/
theorem toOption_parse_line :
    (parse env (line before command after)).toOption =
      if env.disassembler = some "" then none
      else (Given.takeAll? {} (before ++ after)).map fun g => options (some command) g env := by
  have hbefore : ∀ p ∈ before, p.isWritten = true := fun p hp => hwritten p (List.mem_append_left _ hp)
  have hafter : ∀ p ∈ after, p.isWritten = true := fun p hp => hwritten p (List.mem_append_right _ hp)
  rw [toOption_parse, line, outcome_before hbefore, Option.bind_map]
  simp only [Function.comp_def, Option.elim_some, outcome_last (some command) hafter, Option.bind_map]
  rw [takeAll?_levels honce]
  cases houter : Given.takeAll? {} before with
  | none => simp
  | some outer =>
    cases hinner : Given.takeAll? {} after with
    | none => simp
    | some inner =>
      by_cases henv : env.disassembler = some ""
      · simp only [Option.bind_some, complete?, not_covered_both env honce houter hinner henv, henv, if_true,
          Bool.false_eq_true, if_false]
      · have hcovered (g : Given) : covered env g = true := by simp [covered, henv]
        simp [complete?, hcovered, henv]

end Placement

theorem isSome_takeAll? {ps : List Phrase} (honce : ps.Pairwise Phrase.Apart) :
    (Given.takeAll? {} ps).isSome = true ↔ ∀ p ∈ ps, (Given.takeAll? {} [p]).isSome = true := by
  induction ps with
  | nil => simp [Given.takeAll?]
  | cons p ps ih =>
    have hsplit : Given.takeAll? {} (p :: ps) = _ := takeAll?_levels (show ([p] ++ ps).Pairwise Phrase.Apart from honce)
    rw [hsplit, List.forall_mem_cons, ← ih (List.pairwise_cons.mp honce).2]
    cases Given.takeAll? {} [p] with
    | none => simp
    | some g => simp

theorem exists_ok_iff {ε α : Type} (x : Except ε α) : (∃ a, x = .ok a) ↔ x.toOption.isSome = true := by
  cases x with
  | error e => simp [Except.toOption]
  | ok a => simp [Except.toOption]

/-- A phrase can be a line of its own. -/
theorem parse_phrase_iff {p : Phrase} (h : p.isWritten = true) :
    (∃ o, parse {} p.words = .ok o) ↔ (Given.takeAll? {} [p]).isSome = true := by
  have hwritten : ∀ q ∈ [p], q.isWritten = true := List.forall_mem_singleton.mpr h
  have hparse := toOption_parse_phrases {} hwritten
  rw [List.flatMap_singleton] at hparse
  rw [exists_ok_iff, hparse]
  cases Given.takeAll? {} [p] with
  | none => rfl
  | some g => simp [complete?, covered]

theorem revision_options {g : Given} {value : String} (h : g.value? .revision = some ↑value) (command : Option Command)
    (env : Variables) : (options command g env).revision = some value := by
  obtain ⟨given, hgiven, hvalue⟩ := Option.map_eq_some_iff.mp h
  simp [options, hgiven, Raw.ofText_inj.mp hvalue]

theorem disassembler_options {g : Given} {value : String} (h : g.value? .disassembler = some ↑value)
    (command : Option Command) (env : Variables) : (options command g env).disassembler = some ⟨value⟩ := by
  obtain ⟨p, hp, hvalue⟩ := Option.map_eq_some_iff.mp h
  simp [options, hp, ← hvalue]

/-- The name of the command can stand anywhere between the phrases: all places give the same options and the same
settings, or all are refused. Values on the line count in front of the environment. A line is refused for one of its
phrases, or for an empty variable in the place of the path, even if the line has a path. -/
theorem placements_agree (env : Variables) (command : Command) (phrases : List Phrase)
    (hwritten : ∀ p ∈ phrases, p.isWritten = true) (honce : phrases.Pairwise Phrase.Apart) (settings : Settings) :
    (∃ outcome, ∀ before after, before ++ after = phrases →
      ((parse env (line before command after)).toOption.map fun o => (o, o.applyTo settings)) = outcome) ∧
    ∀ before after, before ++ after = phrases →
      (∀ o, parse env (line before command after) = .ok o → ∀ p ∈ phrases, ∀ value,
        (p.Gives .revision value →
          o.revision = some value ∧ (o.applyTo settings).source.revision = some value) ∧
        (p.Gives .disassembler value →
          o.disassembler = some ⟨value⟩ ∧ (o.applyTo settings).disassembler.path = some ⟨value⟩)) ∧
      ((∃ o, parse env (line before command after) = .ok o) ↔
        env.disassembler ≠ some "" ∧ ∀ p ∈ phrases, ∃ o, parse {} p.words = .ok o) := by
  refine ⟨⟨(parse env (line [] command phrases)).toOption.map fun o => (o, o.applyTo settings), ?_⟩, ?_⟩
  · rintro before after rfl
    have hfirst : (parse env (line [] command (before ++ after))).toOption = _ :=
      toOption_parse_line env command (show ∀ p ∈ [] ++ (before ++ after), p.isWritten = true from hwritten) honce
    rw [hfirst, toOption_parse_line env command hwritten honce]
    rfl
  rintro before after rfl
  have hline := toOption_parse_line env command hwritten honce
  refine ⟨fun o ho p hp value => ?_, ?_⟩
  · rw [ho] at hline
    have henv : env.disassembler ≠ some "" := fun henv => by simp [henv, Except.toOption] at hline
    rw [if_neg henv] at hline
    obtain ⟨g, htake, hoptions⟩ := Option.map_eq_some_iff.mp hline.symm
    subst hoptions
    refine ⟨fun hgives => ?_, fun hgives => ?_⟩
    · have hrevision := revision_options (Given.value?_takeAll? hp hgives (.inl rfl) htake) (some command) env
      exact ⟨hrevision, by simp [Options.applyTo, hrevision]⟩
    · have hpath := disassembler_options (Given.value?_takeAll? hp hgives (.inr rfl) htake) (some command) env
      exact ⟨hpath, by simp [Options.applyTo, hpath]⟩
  · have halone : (∀ p ∈ before ++ after, ∃ o, parse {} p.words = .ok o) ↔
        (Given.takeAll? {} (before ++ after)).isSome = true :=
      (forall₂_congr fun p hp => parse_phrase_iff (hwritten p hp)).trans (isSome_takeAll? honce).symm
    rw [exists_ok_iff, hline, halone]
    by_cases henv : env.disassembler = some "" <;> simp [henv]

/-- Four options in three phrases: a value as the next word, one after an equals sign, and one attached to a letter. -/
def mixedPhrases : List Phrase :=
  [.long .revision (.apart "status"), .long .disassembler (.joined "/usr/bin/addr2line"),
    .letters [.verbose, .verbose] .config (.joined "=a.toml")]

theorem placements_of_mixedPhrases_agree :
    ∃ o, parse { revision := some "v1", disassembler := some "/env" } (line [] .guide mixedPhrases) = .ok o ∧
      parse { revision := some "v1", disassembler := some "/env" } (line mixedPhrases .guide []) = .ok o ∧
      o.revision = some "status" ∧ o.disassembler = some ⟨"/usr/bin/addr2line"⟩ ∧ o.verbose = 2 := by
  have hplaces := placements_agree { revision := some "v1", disassembler := some "/env" } .guide mixedPhrases
    (List.all_eq_true.mp (by decide +kernel)) (by decide +kernel) {}
  have hvalues := (hplaces.2 [] mixedPhrases rfl).1 _ rfl
  refine ⟨_, rfl, rfl, ?_, ?_, rfl⟩
  · exact ((hvalues _ List.mem_cons_self "status").1 ⟨rfl, rfl⟩).1
  · exact ((hvalues _ (List.mem_cons_of_mem _ List.mem_cons_self) "/usr/bin/addr2line").2 ⟨rfl, rfl⟩).1

/-- With an empty variable a line with a path is refused wherever its command stands, but not without the command, nor
without the variable. -/
theorem path_on_line_is_refused_for_empty_variable :
    parse { disassembler := some "" } ["guide", "--disassembler", "/cli"] = .error (.valueRequired .disassembler) ∧
      parse { disassembler := some "" } ["--disassembler", "/cli", "guide"] = .error (.valueRequired .disassembler) ∧
      parse { disassembler := some "" } ["--disassembler", "/cli"] = .ok { disassembler := some ⟨"/cli"⟩ } ∧
      parse {} ["guide", "--disassembler", "/cli"] = .ok { given := some .guide, disassembler := some ⟨"/cli"⟩ } :=
  ⟨rfl, rfl, rfl, rfl⟩

end Bringup.CommandLine

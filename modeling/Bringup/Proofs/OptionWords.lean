import Bringup.Options.CommandLine

/-!
# The words of an option

An option is written as one or two words. What such a phrase means does not depend on the level that it is read in, nor
on what follows: it gives its options to those that the level has given so far, or the whole line is refused.

* `Phrase`: one option, or a row of letters, with its value. `Phrase.words`: how it stands on the command line.
* `Level.total`: the options that a level gives if it ends here.
* `Level.outcome_phrase`, `Level.outcome_phrases`: reading one phrase, and several, in front of any other words.
-/

namespace Bringup

set_option autoImplicit false

theorem toOption_bind {ε α β : Type} (x : Except ε α) (f : α → Except ε β) :
    (x >>= f).toOption = x.toOption.bind fun a => (f a).toOption := by
  cases x with
  | error e => rfl
  | ok a => rfl

theorem toOption_return {ε α β : Type} (x : Except ε α) (f : α → β) :
    (do return f (← x) : Except ε β).toOption = x.toOption.map f := by
  cases x with
  | error e => rfl
  | ok a => rfl

namespace Switch

/-- One of the nine options, and no request for a text. -/
def isDeclared (s : Switch) : Bool := s != help && s != version

/-- A flag that can be given as a letter. -/
def isFlagLetter (s : Switch) : Bool := s.isDeclared && s.short?.isSome && !s.takesValue

theorem isFlagLetter_iff {s : Switch} :
    s.isFlagLetter = true ↔ s.isDeclared = true ∧ s.short?.isSome = true ∧ s.takesValue = false := by
  simp [isFlagLetter, and_assoc]

/-- The letter of an option that has one. -/
def letter (s : Switch) : Char := s.short?.getD '-'

theorem ofLong?_long {s : Switch} (hs : s.isDeclared = true) (inCommand : Bool) :
    ofLong? inCommand s.long = some s := by
  revert hs inCommand
  cases s <;> decide

theorem takeWhile_long (s : Switch) (rest : List Char) :
    (s.long.toList ++ rest).takeWhile (· != '=') = s.long.toList ++ rest.takeWhile (· != '=') := by
  refine List.takeWhile_append_of_pos (List.all_eq_true.mp ?_)
  cases s <;> decide

theorem ofShort?_letter {s : Switch} (hs : s.isDeclared = true) (hletter : s.short?.isSome = true) (inCommand : Bool) :
    ofShort? inCommand s.letter = some s := by
  revert hs hletter inCommand
  cases s <;> decide

theorem letter_ne_dash {s : Switch} (hletter : s.short?.isSome = true) : s.letter ≠ '-' := by
  revert hletter
  cases s <;> decide

end Switch

namespace CommandLine

/-! ## Phrases -/

/-- How the value of an option is written. -/
inductive Value where
  | absent
  /-- In the same word, after an equals sign or right after a letter. -/
  | joined (text : String)
  /-- As the next word. -/
  | apart (word : String)
deriving DecidableEq

/-- An option as it is written, or several. -/
inductive Phrase where
  /-- One option by its name. -/
  | long (option : Switch) (value : Value)
  /-- A row of letters, all but the last one flags. -/
  | letters (flags : List Switch) (last : Switch) (value : Value)
deriving DecidableEq

/-- The word starts like an option. -/
def looksLikeOption (word : String) : Bool :=
  match word.toList with
  | '-' :: _ :: _ => true
  | _ => false

namespace Phrase

/-- The words on the command line. -/
def words : Phrase → List String
  | long s .absent => ["--" ++ s.long]
  | long s (.joined text) => ["--" ++ s.long ++ "=" ++ text]
  | long s (.apart word) => ["--" ++ s.long, word]
  | letters flags s .absent => [String.ofList ('-' :: (flags.map Switch.letter ++ [s.letter]))]
  | letters flags s (.joined text) => [String.ofList ('-' :: (flags.map Switch.letter ++ s.letter :: text.toList))]
  | letters flags s (.apart word) => [String.ofList ('-' :: (flags.map Switch.letter ++ [s.letter])), word]

/-- The phrase names only the nine options, by the letters that they have. An option that takes a value has one. A flag
may have one by mistake, after an equals sign. -/
def isWritten : Phrase → Bool
  | long s .absent => s.isDeclared && !s.takesValue
  | long s (.joined _) => s.isDeclared
  | long s (.apart _) => s.isDeclared && s.takesValue
  | letters flags s .absent => flags.all Switch.isFlagLetter && s.isFlagLetter
  | letters flags s (.joined text) => flags.all Switch.isFlagLetter && s.isDeclared && s.short?.isSome &&
    if s.takesValue then !text.toList.isEmpty else text.toList.head? == some '='
  | letters flags s (.apart _) => flags.all Switch.isFlagLetter && s.isDeclared && s.short?.isSome && s.takesValue

/-- The flags in front of the last letter. -/
def flags : Phrase → List Switch
  | long _ _ => []
  | letters flags _ _ => flags

/-- The option that a value is for. -/
def last : Phrase → Switch
  | long s _ => s
  | letters _ s _ => s

/-- All options that the phrase names. -/
def options (p : Phrase) : List Switch := p.flags ++ [p.last]

/-- The value that is written, if any. After a letter, an equals sign in front of it does not count. -/
def value? : Phrase → Option String
  | long _ .absent => none
  | long _ (.joined text) => some text
  | long _ (.apart word) => some word
  | letters _ _ .absent => none
  | letters _ _ (.joined text) => Level.attached text.toList
  | letters _ _ (.apart word) => some word

/-- The phrase gives the option this value. -/
def Gives (p : Phrase) (option : Switch) (value : String) : Prop := p.last = option ∧ p.value? = some value

/-- No flag has a value, and no value looks like an option. -/
def isReadable : Phrase → Bool
  | long s (.joined _) => s.takesValue
  | letters _ s (.joined _) => s.takesValue
  | long _ (.apart word) => !looksLikeOption word
  | letters _ _ (.apart word) => !looksLikeOption word
  | long _ .absent => true
  | letters _ _ .absent => true

/-- The options of the phrase with their values, in order. -/
def assignments (p : Phrase) : List (Switch × String) := p.flags.map (·, "") ++ [(p.last, p.value?.getD "")]

end Phrase

/-! ## Giving options -/

namespace Given

/-- The options with one more, if it can be given. -/
def put? (g : Given) (a : Switch × String) : Option Given := (g.put a.1 a.2).toOption

/-- The options with several more, one after another. -/
def putAll? (g : Given) (as : List (Switch × String)) : Option Given := as.foldlM put? g

/-- The options with those of a phrase. -/
def take? (g : Given) (p : Phrase) : Option Given := if p.isReadable then g.putAll? p.assignments else none

/-- The options with those of several phrases. -/
def takeAll? (g : Given) (ps : List Phrase) : Option Given := ps.foldlM take? g

theorem putAll?_cons (g : Given) (a : Switch × String) (as : List (Switch × String)) :
    g.putAll? (a :: as) = (g.put? a).bind fun g' => g'.putAll? as :=
  List.foldlM_cons

theorem putAll?_singleton (g : Given) (a : Switch × String) : g.putAll? [a] = g.put? a := by
  rw [putAll?_cons]
  exact Option.bind_fun_some _

theorem putAll?_append (g : Given) (as bs : List (Switch × String)) :
    g.putAll? (as ++ bs) = (g.putAll? as).bind fun g' => g'.putAll? bs :=
  List.foldlM_append

theorem take?_eq (g : Given) (p : Phrase) :
    g.take? p = if p.isReadable then
      (g.putAll? (p.flags.map (·, ""))).bind fun g' => g'.put? (p.last, p.value?.getD "") else none := by
  simp only [take?, Phrase.assignments, putAll?_append, putAll?_singleton]

theorem takeAll?_cons (g : Given) (p : Phrase) (ps : List Phrase) :
    g.takeAll? (p :: ps) = (g.take? p).bind fun g' => g'.takeAll? ps :=
  List.foldlM_cons

theorem takeAll?_append (g : Given) (ps qs : List Phrase) :
    g.takeAll? (ps ++ qs) = (g.takeAll? ps).bind fun g' => g'.takeAll? qs :=
  List.foldlM_append

end Given

/-! ## What a level gives -/

namespace Level

/-- A level in which nothing is pending. -/
def settled (command : Option Command) (g : Given) : Level := { command, given := g }

/-- The options that the level gives if it ends here. -/
def total (l : Level) : Option Given := l.settle.toOption.map Level.given

theorem toOption_settle (l : Level) : l.settle.toOption = l.total.map (settled l.command) := by
  obtain ⟨command, given, pending⟩ := l
  rw [total]
  cases pending with
  | none => rfl
  | some unsettled =>
    obtain ⟨option, value⟩ := unsettled
    cases value with
    | none => rfl
    | some value =>
      cases hput : given.put option value with
      | error e => simp [settle, hput, bind, Except.bind, Except.toOption]
      | ok g => simp [settle, hput, bind, Except.bind, Except.toOption, pure, Except.pure, settled]

/-- What settles the level first sees no more of it than its command and the options it gives. -/
theorem toOption_settle_bind {β : Type} (l : Level) (k : Level → Except Usage β) :
    (l.settle >>= k).toOption = l.total.bind fun g => (k (settled l.command g)).toOption := by
  rw [toOption_bind, toOption_settle]
  cases l.total with
  | none => rfl
  | some g => rfl

theorem toOption_flag (l : Level) (s : Switch) (long : Bool) :
    (l.flag s long).toOption = l.total.bind fun g => ((settled l.command g).flag s long).toOption :=
  l.toOption_settle_bind _

theorem toOption_option (l : Level) (s : Switch) (value : Option String) :
    (l.option s value).toOption = l.total.bind fun g => ((settled l.command g).option s value).toOption :=
  l.toOption_settle_bind _

theorem toOption_long (l : Level) (name : String) (value : Option String) :
    (l.long name value).toOption = l.total.bind fun g => ((settled l.command g).long name value).toOption := by
  have hin (g : Given) : (settled l.command g).inCommand = l.inCommand := rfl
  simp only [long, hin]
  cases Switch.ofLong? l.inCommand name with
  | none => simp [Except.toOption]
  | some s =>
    by_cases htakes : s.takesValue = true
    · simpa only [htakes, if_true] using l.toOption_option s value
    · cases value with
      | none => simpa only [if_neg htakes] using l.toOption_flag s true
      | some value => simp [htakes, Except.toOption]

theorem toOption_letters (l : Level) (c : Char) (cs : List Char) :
    (l.letters (c :: cs)).toOption = l.total.bind fun g => ((settled l.command g).letters (c :: cs)).toOption := by
  have hin (g : Given) : (settled l.command g).inCommand = l.inCommand := rfl
  simp only [letters, hin]
  cases Switch.ofShort? l.inCommand c with
  | none => simp [Except.toOption]
  | some s =>
    by_cases htakes : s.takesValue = true
    · simpa only [htakes, if_true] using l.toOption_option s (attached cs)
    · simp only [if_neg htakes, toOption_bind]
      rw [toOption_flag, Option.bind_assoc]

/-- A word is read the same once the level is settled, unless it is the value that is awaited. -/
theorem toOption_argument {l : Level} {arg : String} (h : l.awaits = false ∨ looksLikeOption arg = true) :
    (l.argument arg).toOption = l.total.bind fun g => ((settled l.command g).argument arg).toOption := by
  unfold argument
  split
  · exact l.toOption_long _ _
  · exact l.toOption_letters _ _
  · rename_i hnames hletters
    have hplain : looksLikeOption arg = false := by
      unfold looksLikeOption
      split
      · rename_i c cs heq
        exact absurd heq (hletters c cs)
      · rfl
    have hawaits : l.awaits = false := h.resolve_right (by simp [hplain])
    have hword : (l.word arg).toOption = none := by
      unfold word
      split
      · rename_i option hpending
        simp [awaits, hpending] at hawaits
      · rfl
    rw [hword]
    cases l.total with
    | none => rfl
    | some g => rfl

/-- What is left of reading a level: the options it gives, and the command with its words. -/
def outcome (r : Except Usage (Level × Option (Command × List String))) :
    Option (Given × Option (Command × List String)) :=
  r.toOption.bind fun (l, next) => l.total.map (·, next)

theorem outcome_ok (l : Level) (next : Option (Command × List String)) : outcome (.ok (l, next)) = l.total.map (·, next) :=
  rfl

theorem outcome_bind (x : Except Usage Level) (ws : List String) :
    outcome (x >>= fun l => l.read ws) = x.toOption.bind fun l => outcome (l.read ws) := by
  cases x with
  | error e => rfl
  | ok l => rfl

theorem outcome_ok_settled (l : Level) (next : Option (Command × List String)) :
    outcome (.ok (l, next)) = l.total.bind fun g => outcome (.ok (settled l.command g, next)) := by
  rw [outcome_ok]
  cases l.total with
  | none => rfl
  | some g => rfl

/-- The words are read the same once the level is settled, unless the first is the value that is awaited. -/
theorem outcome_read {l : Level} (hawaits : l.awaits = false) (ws : List String) :
    outcome (l.read ws) = l.total.bind fun g => outcome ((settled l.command g).read ws) := by
  cases ws with
  | nil => exact l.outcome_ok_settled none
  | cons arg rest =>
    have hin (g : Given) : (settled l.command g).inCommand = l.inCommand := rfl
    have hsettled (g : Given) : (settled l.command g).awaits = false := rfl
    simp only [read, hin, hawaits, hsettled]
    split
    · simp [outcome, Except.toOption]
    · split
      · exact l.outcome_ok_settled _
      · split
        · cases rest with
          | nil => exact l.outcome_ok_settled none
          | cons other rest => simp [outcome, Except.toOption]
        · simp only [outcome_bind, toOption_argument (.inl hawaits), Option.bind_assoc]

theorem ofName?_eq_none {arg : String} (h : looksLikeOption arg = true) : Command.ofName? arg = none := by
  rw [Command.ofName?, List.find?_eq_none]
  intro c _ hname
  have harg : arg = c.name := (by simpa using hname : c.name = arg).symm
  rw [harg] at h
  revert h
  cases c <;> decide

theorem ne_help {arg : String} (h : looksLikeOption arg = true) : (arg == "help") = false := by
  refine beq_eq_false_iff_ne.mpr fun heq => ?_
  rw [heq] at h
  exact absurd h (by decide)

/-- A level that gives nothing has come to an end with a word that looks like an option. -/
theorem outcome_read_eq_none {l : Level} (htotal : l.total = none) {arg : String} (h : looksLikeOption arg = true)
    (rest : List String) : outcome (l.read (arg :: rest)) = none := by
  simp only [read, ne_help h, ofName?_eq_none h, Bool.and_false, ite_self]
  split
  · rename_i heq
    cases heq
  · split
    · cases rest with
      | nil => simp [outcome_ok, htotal]
      | cons other rest => rfl
    · rw [outcome_bind, toOption_argument (.inr h), htotal]
      rfl

/-! ## Reading a phrase -/

/-- A level that waits for the value of an option. -/
def waiting (command : Option Command) (g : Given) (s : Switch) : Level :=
  { command, given := g, pending := some (s, none) }

section Settled

variable (command : Option Command) (g : Given)

theorem toOption_put (s : Switch) (value : String) :
    (do return { settled command g with given := ← g.put s value } : Except Usage Level).toOption =
      (g.put? (s, value)).map (settled command) := by
  exact toOption_return (g.put s value) _

theorem toOption_flag_settled {s : Switch} (hs : s.isDeclared = true) (long : Bool) :
    ((settled command g).flag s long).toOption = (g.put? (s, "")).map (settled command) := by
  rw [← toOption_put]
  cases s <;> first | rfl | cases hs

theorem toOption_option_settled (s : Switch) (value : String) :
    ((settled command g).option s (some value)).toOption = (g.put? (s, value)).map (settled command) :=
  toOption_put command g s value

theorem option_none_settled (s : Switch) : (settled command g).option s none = .ok (waiting command g s) := rfl

end Settled

theorem long_of_takesValue (l : Level) {s : Switch} (hs : s.isDeclared = true) (htakes : s.takesValue = true)
    (value : Option String) : l.long s.long value = l.option s value := by
  simp [long, Switch.ofLong?_long hs, htakes]

theorem long_of_flag (l : Level) {s : Switch} (hs : s.isDeclared = true) (htakes : s.takesValue = false) :
    l.long s.long none = l.flag s true := by
  simp [long, Switch.ofLong?_long hs, htakes]

theorem long_of_flag_value (l : Level) {s : Switch} (hs : s.isDeclared = true) (htakes : s.takesValue = false)
    (text : String) : l.long s.long (some text) = .error (.unexpectedValue s text) := by
  simp [long, Switch.ofLong?_long hs, htakes]

theorem argument_name (l : Level) (s : Switch) : l.argument ("--" ++ s.long) = l.long s.long none := by
  have hchars : ("--" ++ s.long).toList = '-' :: '-' :: s.long.toList := by simp
  have hname : s.long.toList.takeWhile (· != '=') = s.long.toList := by simpa using s.takeWhile_long []
  simp [argument, hchars, hname]

theorem argument_name_value (l : Level) (s : Switch) (text : String) :
    l.argument ("--" ++ s.long ++ "=" ++ text) = l.long s.long (some text) := by
  have hchars : ("--" ++ s.long ++ "=" ++ text).toList = '-' :: '-' :: (s.long.toList ++ '=' :: text.toList) := by simp
  have hname : (s.long.toList ++ '=' :: text.toList).takeWhile (· != '=') = s.long.toList := by
    simpa using s.takeWhile_long ('=' :: text.toList)
  simp [argument, hchars, hname]

theorem argument_letters (l : Level) {c : Char} (hc : c ≠ '-') (cs : List Char) :
    l.argument (String.ofList ('-' :: c :: cs)) = l.letters (c :: cs) := by
  simp only [argument, String.toList_ofList]

theorem letters_letter (l : Level) {s : Switch} (hs : s.isDeclared = true) (hletter : s.short?.isSome = true)
    (cs : List Char) :
    l.letters (s.letter :: cs) =
      if s.takesValue then l.option s (attached cs) else l.flag s false >>= fun l => l.letters cs := by
  rw [letters, Switch.ofShort?_letter hs hletter]

/-- The flags of a row of letters are given before the rest of the row is read. -/
theorem toOption_letters_flags (command : Option Command) {flags : List Switch}
    (hflags : ∀ f ∈ flags, f.isFlagLetter = true) (g : Given) (cs : List Char) :
    ((settled command g).letters (flags.map Switch.letter ++ cs)).toOption =
      (g.putAll? (flags.map (·, ""))).bind fun g' => ((settled command g').letters cs).toOption := by
  induction flags generalizing g with
  | nil => rfl
  | cons f flags ih =>
    obtain ⟨hf, hletter, htakes⟩ := Switch.isFlagLetter_iff.mp (hflags f List.mem_cons_self)
    have hrest : ∀ f ∈ flags, f.isFlagLetter = true := fun f hmem => hflags f (List.mem_cons_of_mem _ hmem)
    rw [List.map_cons, List.cons_append, letters_letter _ hf hletter, htakes, if_neg Bool.false_ne_true, toOption_bind,
      toOption_flag_settled _ _ hf, List.map_cons, Given.putAll?_cons, Option.bind_map, Option.bind_assoc]
    exact congrArg _ (funext fun g' => ih hrest g')

theorem read_option {arg : String} (h : looksLikeOption arg = true) (hdashes : arg ≠ "--") (l : Level)
    (rest : List String) : l.read (arg :: rest) = l.argument arg >>= fun l => l.read rest := by
  simp [read, ne_help h, ofName?_eq_none h, hdashes]

/-- The value that is awaited is given, unless it looks like an option. -/
theorem outcome_waiting (command : Option Command) (g : Given) (s : Switch) (word : String) (rest : List String) :
    outcome ((waiting command g s).read (word :: rest)) =
      if looksLikeOption word then none
      else (g.put? (s, word)).bind fun g' => outcome ((settled command g').read rest) := by
  by_cases h : looksLikeOption word = true
  · rw [if_pos h]
    exact outcome_read_eq_none rfl h rest
  · rw [if_neg h]
    have hdashes : word ≠ "--" := fun heq => h (by rw [heq]; decide)
    have hargument : (waiting command g s).argument word =
        .ok { command, given := g, pending := some (s, some word) } := by
      unfold argument
      split
      · rename_i heq
        simp [looksLikeOption, heq] at h
      · rename_i heq
        simp [looksLikeOption, heq] at h
      · rfl
    have hread : (waiting command g s).read (word :: rest) =
        (waiting command g s).argument word >>= fun l => l.read rest := by
      have hawaits : (waiting command g s).awaits = true := rfl
      simp [read, hawaits, hdashes]
    have htotal : Level.total { command, given := g, pending := some (s, some word) } = g.put? (s, word) := by
      have hput := toOption_put command g s word
      rw [total]
      refine (congrArg (Option.map Level.given) hput).trans ?_
      simp [Function.comp_def, settled]
    rw [hread, hargument, outcome_bind]
    refine (outcome_read rfl rest).trans ?_
    rw [htotal]

/-- A phrase of one word is given, or the line is refused. -/
theorem outcome_one_word {command : Option Command} {g : Given} {arg : String} {x : Option Given}
    (h : looksLikeOption arg = true) (hdashes : arg ≠ "--")
    (hread : ((settled command g).argument arg).toOption = x.map (settled command)) (rest : List String) :
    outcome ((settled command g).read (arg :: rest)) = x.bind fun g' => outcome ((settled command g').read rest) := by
  rw [read_option h hdashes, outcome_bind, hread, Option.bind_map]
  rfl

/-- A phrase of two words is given, unless its value looks like an option. -/
theorem outcome_two_words {command : Option Command} {g : Given} {arg : String} {x : Option Given} {s : Switch}
    (h : looksLikeOption arg = true) (hdashes : arg ≠ "--")
    (hread : ((settled command g).argument arg).toOption = x.map fun g' => waiting command g' s)
    (word : String) (rest : List String) :
    outcome ((settled command g).read (arg :: word :: rest)) =
      (if !looksLikeOption word then x.bind fun g' => g'.put? (s, word) else none).bind fun g' =>
        outcome ((settled command g').read rest) := by
  rw [read_option h hdashes, outcome_bind, hread, Option.bind_map]
  simp only [Function.comp_def, outcome_waiting]
  cases looksLikeOption word with
  | true => simp
  | false => simp [Option.bind_assoc]

theorem looksLikeOption_name (s : Switch) (text : String) :
    looksLikeOption ("--" ++ s.long ++ text) = true ∧ "--" ++ s.long ++ text ≠ "--" := by
  have hchars : ("--" ++ s.long ++ text).toList = '-' :: '-' :: (s.long.toList ++ text.toList) := by simp
  refine ⟨by simp [looksLikeOption, hchars], fun heq => ?_⟩
  have hnil : s.long.toList ++ text.toList = [] := by
    have hboth := hchars.symm.trans (congrArg String.toList heq)
    simpa using hboth
  have hlong : s.long.toList = [] := (List.append_eq_nil_iff.mp hnil).1
  revert hlong
  cases s <;> decide

theorem looksLikeOption_letters {c : Char} (hc : c ≠ '-') (cs : List Char) :
    looksLikeOption (String.ofList ('-' :: c :: cs)) = true ∧ String.ofList ('-' :: c :: cs) ≠ "--" := by
  refine ⟨by simp [looksLikeOption], fun heq => hc ?_⟩
  have hchars := congrArg String.toList heq
  simp only [String.toList_ofList] at hchars
  exact (List.cons.inj (List.cons.inj hchars).2).1

/-! The first word of a row of letters, with what stands after the last letter. -/

theorem exists_cons_of_letters {flags : List Switch} (hflags : ∀ f ∈ flags, f.isFlagLetter = true) {s : Switch}
    (hletter : s.short?.isSome = true) (cs : List Char) :
    ∃ c rest, c ≠ '-' ∧ flags.map Switch.letter ++ s.letter :: cs = c :: rest := by
  cases flags with
  | nil => exact ⟨s.letter, cs, Switch.letter_ne_dash hletter, rfl⟩
  | cons f flags =>
    obtain ⟨hf, hletter, htakes⟩ := Switch.isFlagLetter_iff.mp (hflags f List.mem_cons_self)
    exact ⟨f.letter, _, Switch.letter_ne_dash hletter, rfl⟩

section Row

variable {flags : List Switch} (hflags : ∀ f ∈ flags, f.isFlagLetter = true) {s : Switch}
  (hletter : s.short?.isSome = true)

include hflags hletter

theorem looksLikeOption_row (cs : List Char) :
    looksLikeOption (String.ofList ('-' :: (flags.map Switch.letter ++ s.letter :: cs))) = true ∧
      String.ofList ('-' :: (flags.map Switch.letter ++ s.letter :: cs)) ≠ "--" := by
  obtain ⟨c, rest, hc, hrow⟩ := exists_cons_of_letters hflags hletter cs
  rw [hrow]
  exact looksLikeOption_letters hc rest

theorem toOption_argument_row (command : Option Command) (g : Given) (cs : List Char) :
    ((settled command g).argument (String.ofList ('-' :: (flags.map Switch.letter ++ s.letter :: cs)))).toOption =
      (g.putAll? (flags.map (·, ""))).bind fun g' => ((settled command g').letters (s.letter :: cs)).toOption := by
  obtain ⟨c, rest, hc, hrow⟩ := exists_cons_of_letters hflags hletter cs
  rw [hrow, argument_letters _ hc, ← hrow, toOption_letters_flags command hflags]

end Row

theorem toOption_row_end (command : Option Command) (g : Given) {s : Switch} (hs : s.isDeclared = true)
    (hletter : s.short?.isSome = true) (htakes : s.takesValue = false) :
    ((settled command g).letters [s.letter]).toOption = (g.put? (s, "")).map (settled command) := by
  rw [letters_letter _ hs hletter, htakes, if_neg Bool.false_ne_true, toOption_bind, toOption_flag_settled _ _ hs,
    Option.bind_map]
  exact (Option.map_eq_bind ..).symm

theorem toOption_row_value (command : Option Command) (g : Given) {s : Switch} (hs : s.isDeclared = true)
    (hletter : s.short?.isSome = true) (htakes : s.takesValue = true) {cs : List Char} (hcs : cs ≠ []) :
    ((settled command g).letters (s.letter :: cs)).toOption =
      (g.put? (s, (attached cs).getD "")).map (settled command) := by
  have hvalue : attached cs = some ((attached cs).getD "") := by
    unfold attached
    split
    · exact absurd rfl hcs
    · rfl
    · rfl
  rw [letters_letter _ hs hletter, if_pos htakes, hvalue]
  exact toOption_option_settled command g s _

/-- The equals sign is no letter of any option. -/
theorem toOption_row_mistake (l : Level) {s : Switch} (hs : s.isDeclared = true) (hletter : s.short?.isSome = true)
    (htakes : s.takesValue = false) (cs : List Char) : (l.letters (s.letter :: '=' :: cs)).toOption = none := by
  have hletters (l : Level) : (l.letters ('=' :: cs)).toOption = none := by
    have hnone (inCommand : Bool) : Switch.ofShort? inCommand '=' = none := by cases inCommand <;> decide
    simp [letters, hnone, Except.toOption]
  rw [letters_letter _ hs hletter, htakes, if_neg Bool.false_ne_true, toOption_bind]
  simp [hletters]

theorem outcome_long (command : Option Command) (g : Given) {s : Switch} {value : Value}
    (h : (Phrase.long s value).isWritten = true) (rest : List String) :
    outcome ((settled command g).read ((Phrase.long s value).words ++ rest)) =
      (g.take? (.long s value)).bind fun g' => outcome ((settled command g').read rest) := by
  rw [Given.take?_eq]
  cases value with
  | absent =>
    have hw : s.isDeclared = true ∧ s.takesValue = false := by simpa [Phrase.isWritten] using h
    have hlook := looksLikeOption_name s ""
    rw [String.append_empty] at hlook
    refine outcome_one_word hlook.1 hlook.2 ?_ rest
    rw [argument_name, long_of_flag _ hw.1 hw.2, toOption_flag_settled _ _ hw.1]
    rfl
  | joined text =>
    have hs : s.isDeclared = true := h
    have hlook := looksLikeOption_name s ("=" ++ text)
    rw [← String.append_assoc] at hlook
    refine outcome_one_word hlook.1 hlook.2 ?_ rest
    rw [argument_name_value]
    by_cases htakes : s.takesValue = true
    · rw [long_of_takesValue _ hs htakes, toOption_option_settled]
      simp [Phrase.isReadable, htakes, Given.putAll?, Phrase.flags, Phrase.last, Phrase.value?]
    · rw [long_of_flag_value _ hs (by simpa using htakes)]
      simp [Phrase.isReadable, htakes, Except.toOption]
  | apart word =>
    have hw : s.isDeclared = true ∧ s.takesValue = true := by simpa [Phrase.isWritten] using h
    have hlook := looksLikeOption_name s ""
    rw [String.append_empty] at hlook
    refine outcome_two_words (x := some g) hlook.1 hlook.2 ?_ word rest
    rw [argument_name, long_of_takesValue _ hw.1 hw.2, option_none_settled]
    rfl

theorem row_of_isWritten {flags : List Switch} {s : Switch} {value : Value}
    (h : (Phrase.letters flags s value).isWritten = true) :
    (∀ f ∈ flags, f.isFlagLetter = true) ∧ s.isDeclared = true ∧ s.short?.isSome = true := by
  cases value with
  | absent =>
    simp only [Phrase.isWritten, Bool.and_eq_true, List.all_eq_true, Switch.isFlagLetter_iff] at h
    exact ⟨fun f hf => Switch.isFlagLetter_iff.mpr (h.1 f hf), h.2.1, h.2.2.1⟩
  | joined text =>
    simp only [Phrase.isWritten, Bool.and_eq_true, List.all_eq_true] at h
    exact ⟨h.1.1.1, h.1.1.2, h.1.2⟩
  | apart word =>
    simp only [Phrase.isWritten, Bool.and_eq_true, List.all_eq_true] at h
    exact ⟨h.1.1.1, h.1.1.2, h.1.2⟩

theorem outcome_letters (command : Option Command) (g : Given) {flags : List Switch} {s : Switch} {value : Value}
    (h : (Phrase.letters flags s value).isWritten = true) (rest : List String) :
    outcome ((settled command g).read ((Phrase.letters flags s value).words ++ rest)) =
      (g.take? (.letters flags s value)).bind fun g' => outcome ((settled command g').read rest) := by
  obtain ⟨hflags, hs, hletter⟩ := row_of_isWritten h
  rw [Given.take?_eq]
  cases value with
  | absent =>
    have htakes : s.takesValue = false := (Switch.isFlagLetter_iff.mp (Bool.and_eq_true_iff.mp h).2).2.2
    have hlook := looksLikeOption_row hflags hletter []
    refine outcome_one_word hlook.1 hlook.2 ?_ rest
    rw [toOption_argument_row hflags hletter]
    simp only [toOption_row_end _ _ hs hletter htakes]
    exact (Option.map_bind ..).symm
  | joined text =>
    have htext := (Bool.and_eq_true_iff.mp h).2
    have hlook := looksLikeOption_row hflags hletter text.toList
    refine outcome_one_word hlook.1 hlook.2 ?_ rest
    rw [toOption_argument_row hflags hletter]
    cases htakes : s.takesValue with
    | true =>
      have hchars : text.toList ≠ [] := by simpa [htakes] using htext
      simp only [toOption_row_value _ _ hs hletter htakes hchars, Phrase.isReadable, htakes, if_true]
      exact (Option.map_bind ..).symm
    | false =>
      have hhead : text.toList.head? = some '=' := by simpa [htakes] using htext
      obtain ⟨cs, hchars⟩ := List.head?_eq_some_iff.mp hhead
      simp [hchars, toOption_row_mistake _ hs hletter htakes, Phrase.isReadable, htakes]
  | apart word =>
    have htakes : s.takesValue = true := (Bool.and_eq_true_iff.mp h).2
    have hlook := looksLikeOption_row hflags hletter []
    refine outcome_two_words (x := g.putAll? (flags.map (·, ""))) hlook.1 hlook.2 ?_ word rest
    rw [toOption_argument_row hflags hletter]
    simp only [letters_letter _ hs hletter, htakes, if_true, attached, option_none_settled]
    exact (Option.map_eq_bind ..).symm

/-- A phrase in front of other words gives its options, or the line is refused. -/
theorem outcome_phrase (command : Option Command) (g : Given) {p : Phrase} (h : p.isWritten = true)
    (rest : List String) :
    outcome ((settled command g).read (p.words ++ rest)) =
      (g.take? p).bind fun g' => outcome ((settled command g').read rest) := by
  cases p with
  | long s value => exact outcome_long command g h rest
  | letters flags s value => exact outcome_letters command g h rest

/-- Phrases in front of other words give their options one after another. -/
theorem outcome_phrases (command : Option Command) {ps : List Phrase} (h : ∀ p ∈ ps, p.isWritten = true) (g : Given)
    (rest : List String) :
    outcome ((settled command g).read (ps.flatMap Phrase.words ++ rest)) =
      (g.takeAll? ps).bind fun g' => outcome ((settled command g').read rest) := by
  induction ps generalizing g with
  | nil => rfl
  | cons p ps ih =>
    rw [List.flatMap_cons, List.append_assoc, outcome_phrase command g (h p List.mem_cons_self), Given.takeAll?_cons,
      Option.bind_assoc]
    exact congrArg _ (funext fun g' => ih (fun q hq => h q (List.mem_cons_of_mem _ hq)) g')

end Level

end CommandLine

end Bringup

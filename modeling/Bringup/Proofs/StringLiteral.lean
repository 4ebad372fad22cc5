import Bringup.Assignment
import Bringup.Toml.Scalar

/-!
# What a quoted value denotes

The file that a value is written to is a Python script, so the value comes back as what its literal denotes there.

* `denoted?`: the text that a short string literal denotes, as code points.
* `quoted_in_double_quotes`, `quoted_in_single_quotes`: the two ways of quoting.
* `quote_denotes_value_iff`: the values that come back.
-/

namespace Bringup.Assignment

set_option autoImplicit false

open Bringup.Toml (isHexDigit valueIn)

/-! ## Short string literals -/

/-- The code points of escapes with one character. -/
def simpleEscapes : List (Char × Nat) :=
  [('\\', 92), ('\'', 39), ('"', 34), ('a', 7), ('b', 8), ('f', 12), ('n', 10), ('r', 13), ('t', 9), ('v', 11)]

/-- How many hexadecimal digits a code point has after such a letter. -/
def hexWidths : List (Char × Nat) := [('x', 2), ('u', 4), ('U', 8)]

def isOctalDigit (c : Char) : Bool := '0' ≤ c && c ≤ '7'

/-- A code point in so many hexadecimal digits, after the letter of the escape. -/
def hexEscape? (width : Nat) (rest : List Char) : Option (List Nat × Nat) :=
  let digits := rest.take width
  let code := valueIn 16 digits
  if digits.length = width ∧ digits.all isHexDigit ∧ code < 0x110000 then some ([code], width + 1) else none

/-- A character by its name in braces, after the letter of the escape. -/
def namedEscape? (names : List Char → Option Nat) : List Char → Option (List Nat × Nat)
  | '\x7b' :: rest =>
    let name := rest.takeWhile (· != '\x7d')
    if name.length < rest.length then (names name).map fun code => ([code], name.length + 3) else none
  | _ => none

/-- What a backslash stands for with the characters behind it: its code points, and how many of these characters belong
to it. A line break is passed over, and a backslash that forms no escape stands for itself. -/
def escape? (names : List Char → Option Nat) : List Char → Option (List Nat × Nat)
  | [] => none
  | c :: rest =>
    match simpleEscapes.lookup c, hexWidths.lookup c with
    | some code, _ => some ([code], 1)
    | none, some width => hexEscape? width rest
    | none, none =>
      if c = 'N' then namedEscape? names rest
      else if c = '\n' then some ([], 1)
      else if isOctalDigit c then
        let digits := (c :: rest.takeWhile isOctalDigit).take 3
        some ([valueIn 8 digits], digits.length)
      else some ([92], 0)

/-- The code points of a literal after its opening delimiter. The first so many characters belong to an escape that was
read already. The next delimiter has to be the last character. -/
def body? (names : List Char → Option Nat) (delimiter : Char) : Nat → List Char → Option (List Nat)
  | _, [] => none
  | n + 1, _ :: rest => body? names delimiter n rest
  | 0, c :: rest =>
    if c = delimiter then if rest.isEmpty then some [] else none
    else if !isInLine c then none
    else if c = '\\' then
      match escape? names rest with
      | some (codes, n) => (body? names delimiter n rest).map (codes ++ ·)
      | none => none
    else (body? names delimiter 0 rest).map (c.toNat :: ·)

/-- The code points that a short string literal denotes, where `names` gives the characters that have names. -/
def denoted? (names : List Char → Option Nat) : List Char → Option (List Nat)
  | [] => none
  | c :: rest => if c = '\'' ∨ c = '"' then body? names c 0 rest else none

/-- A backslash forms an escape with such a character, or must not stand before it. -/
def startsEscape (c : Char) : Bool :=
  (simpleEscapes.lookup c).isSome || (hexWidths.lookup c).isSome || c == 'N' || c == '\n' || isOctalDigit c

/-! ## How far an escape goes -/

variable (names : List Char → Option Nat) {c d : Char} {rest : List Char}

theorem escape?_of_not_startsEscape (h : startsEscape c = false) : escape? names (c :: rest) = some ([92], 0) := by
  simp only [startsEscape, Bool.or_eq_false_iff, Option.isSome_eq_false_iff, Option.isNone_iff_eq_none,
    beq_eq_false_iff_ne] at h
  simp [escape?, h]

theorem length_hexEscape? {width n : Nat} {codes : List Nat} (h : hexEscape? width rest = some (codes, n)) :
    codes.length ≤ n := by
  simp only [hexEscape?] at h
  split at h
  · cases h
    simp
  · cases h

theorem length_namedEscape? {n : Nat} {codes : List Nat} (h : namedEscape? names rest = some (codes, n)) :
    codes.length ≤ n := by
  unfold namedEscape? at h
  split at h
  · dsimp only at h
    split at h
    · obtain ⟨code, _, heq⟩ := Option.map_eq_some_iff.mp h
      cases heq
      simp
    · cases h
  · cases h

/-- An escape denotes no more characters than follow its backslash. -/
theorem length_escape? (hc : startsEscape c = true) {n : Nat} {codes : List Nat}
    (h : escape? names (c :: rest) = some (codes, n)) : codes.length ≤ n := by
  rw [escape?] at h
  split at h
  · cases h
    simp
  · exact length_hexEscape? h
  · next hsimple hhex =>
    split at h
    · exact length_namedEscape? names h
    split at h
    · cases h
      simp
    split at h
    · cases h
      simp
    · simp_all [startsEscape]

theorem length_escape?_le {n : Nat} {codes : List Nat} (h : escape? names rest = some (codes, n)) :
    codes.length ≤ n + 1 := by
  cases rest with
  | nil => cases h
  | cons c rest =>
    cases hc : startsEscape c with
    | true => exact Nat.le_succ_of_le (length_escape? names hc h)
    | false =>
      rw [escape?_of_not_startsEscape names hc] at h
      cases h
      simp

/-- A literal has more characters than it denotes. -/
theorem length_body? {delimiter : Char} {n : Nat} {text : List Char} {codes : List Nat}
    (h : body? names delimiter n text = some codes) : codes.length + n < text.length := by
  induction text generalizing n codes with
  | nil => cases n <;> cases h
  | cons c rest ih =>
    cases n with
    | succ n =>
      have hrest := ih h
      simp only [List.length_cons]
      omega
    | zero =>
      rw [body?] at h
      split at h
      · split at h
        · cases h
          simp
        · cases h
      split at h
      · cases h
      split at h
      · cases hescape : escape? names rest with
        | none =>
          rw [hescape] at h
          cases h
        | some found =>
          obtain ⟨here, k⟩ := found
          rw [hescape] at h
          obtain ⟨later, hlater, rfl⟩ := Option.map_eq_some_iff.mp h
          have hrest := ih hlater
          have hhere := length_escape?_le names hescape
          simp only [List.length_append, List.length_cons]
          omega
      · obtain ⟨later, hlater, rfl⟩ := Option.map_eq_some_iff.mp h
        have hrest := ih hlater
        simp only [List.length_cons]
        omega

/-! ## The two ways of quoting -/

theorem body?_plain {delimiter : Char} (hdelimiter : c ≠ delimiter) (hline : isInLine c = true) (hslash : c ≠ '\\') :
    body? names delimiter 0 (c :: rest) = (body? names delimiter 0 rest).map (c.toNat :: ·) := by
  simp [body?, hdelimiter, hline, hslash]

theorem body?_backslash {delimiter : Char} (hdelimiter : delimiter ≠ '\\') {codes : List Nat} {n : Nat}
    (hescape : escape? names rest = some (codes, n)) :
    body? names delimiter 0 ('\\' :: rest) = (body? names delimiter n rest).map (codes ++ ·) := by
  have hline : isInLine '\\' = true := by decide
  simp [body?, hdelimiter.symm, hline, hescape]

/-- In double quotes, where backslashes and double quotes are escaped, a value comes back. -/
theorem quoted_in_double_quotes {value : List Char} (hvalue : ∀ c ∈ value, isInLine c = true) :
    body? names '"' 0 (value.flatMap escaped ++ ['"']) = some (value.map Char.toNat) := by
  induction value with
  | nil => rfl
  | cons c value ih =>
    obtain ⟨hline, hvalue⟩ := List.forall_mem_cons.mp hvalue
    rw [List.flatMap_cons, List.append_assoc]
    by_cases hc : c = '\\' ∨ c = '"'
    · have hescape : ∀ rest, escape? names (c :: rest) = some ([c.toNat], 1) := by
        rcases hc with rfl | rfl <;> exact fun _ => rfl
      have hescaped : escaped c = ['\\', c] := by
        rcases hc with rfl | rfl <;> rfl
      rw [hescaped, List.cons_append, List.singleton_append, body?_backslash names (by decide) (hescape _), body?,
        ih hvalue]
      rfl
    · rw [not_or] at hc
      have hescaped : escaped c = [c] := by simp [escaped, hc]
      rw [hescaped, List.singleton_append, body?_plain names hc.2 hline hc.1, ih hvalue]
      rfl

/-- Each backslash stands before a character with which it forms no escape. -/
def Verbatim (value : List Char) : Prop :=
  ∀ after, '\\' :: after <:+ value → ∃ c ∈ after.head?, startsEscape c = false

theorem verbatim_cons_of_ne {value : List Char} (hc : c ≠ '\\') : Verbatim (c :: value) ↔ Verbatim value := by
  refine forall_congr' fun after => ?_
  simp [List.suffix_cons_iff, hc.symm]

theorem verbatim_backslash {value : List Char} :
    Verbatim ('\\' :: value) ↔ (∃ c ∈ value.head?, startsEscape c = false) ∧ Verbatim value := by
  unfold Verbatim
  simp only [List.suffix_cons_iff, List.cons.injEq, true_and, or_imp, forall_and, forall_eq]

/-- With an escape a literal denotes less than is written. -/
theorem length_body?_escape {delimiter : Char} (hdelimiter : delimiter ≠ '\\') (hd : startsEscape d = true)
    {codes : List Nat} (h : body? names delimiter 0 ('\\' :: d :: rest) = some codes) :
    codes.length < (d :: rest).length := by
  cases hescape : escape? names (d :: rest) with
  | none =>
    have hline : isInLine '\\' = true := by decide
    simp [body?, hdelimiter.symm, hline, hescape] at h
  | some found =>
    obtain ⟨here, n⟩ := found
    rw [body?_backslash names hdelimiter hescape] at h
    obtain ⟨later, hlater, rfl⟩ := Option.map_eq_some_iff.mp h
    have hhere := length_escape? names hd hescape
    have hrest := length_body? names hlater
    rw [List.length_append]
    omega

/-- In single quotes a value comes back if its backslashes stand for themselves. -/
theorem quoted_in_single_quotes {value : List Char} (hvalue : ∀ c ∈ value, isInLine c = true) (hquote : '\'' ∉ value) :
    body? names '\'' 0 (value ++ ['\'']) = some (value.map Char.toNat) ↔ Verbatim value := by
  induction value with
  | nil => simp [body?, Verbatim]
  | cons c value ih =>
    obtain ⟨hline, hvalue⟩ := List.forall_mem_cons.mp hvalue
    rw [List.mem_cons, not_or] at hquote
    have hrest := ih hvalue hquote.2
    rw [List.cons_append]
    by_cases hc : c = '\\'
    · subst hc
      have hshort : ∀ d rest, value ++ ['\''] = d :: rest → startsEscape d = true →
          body? names '\'' 0 ('\\' :: (value ++ ['\''])) ≠ some (('\\' :: value).map Char.toNat) := by
        intro d rest heq hd hread
        have hlength := congrArg List.length heq
        rw [heq] at hread
        have hless := length_body?_escape names (by decide) hd hread
        simp only [List.length_append, List.length_map, List.length_cons, List.length_nil] at hlength hless
        omega
      rw [verbatim_backslash, ← hrest]
      cases value with
      | nil => simpa using hshort '\'' [] rfl (by decide)
      | cons d value =>
        cases hd : startsEscape d with
        | true => simpa [hd] using hshort d _ rfl hd
        | false =>
          rw [List.cons_append, body?_backslash names (by decide) (escape?_of_not_startsEscape names hd)]
          cases body? names '\'' 0 (d :: (value ++ ['\''])) with
          | none => simp
          | some codes => simp [hd]
    · rw [body?_plain names (Ne.symm hquote.1) hline hc, verbatim_cons_of_ne hc, ← hrest]
      cases body? names '\'' 0 (value ++ ['\'']) with
      | none => simp
      | some codes => simp

/-- A value within one line comes back from its literal if it holds a single quote, since then it is escaped, and else
exactly if none of its backslashes forms an escape and none stands at its end. -/
theorem quote_denotes_value_iff (value : String) (hvalue : ∀ c ∈ value.toList, isInLine c = true) :
    denoted? names (quote value).toList = some (value.toList.map Char.toNat) ↔
      '\'' ∈ value.toList ∨ Verbatim value.toList := by
  rw [quote, String.toList_ofList, quoteChars]
  by_cases hquote : '\'' ∈ value.toList
  · rw [if_pos (List.contains_iff_mem.mpr hquote)]
    simpa [denoted?, hquote] using quoted_in_double_quotes names hvalue
  · rw [if_neg (fun h => hquote (List.contains_iff_mem.mp h))]
    simpa [denoted?, hquote] using quoted_in_single_quotes names hvalue hquote

/-- Both quotes, an escaped letter and a backslash at the end. -/
theorem quote_denotes_mixed_value :
    (∀ c ∈ "/o'neil \"new\"\\t\\".toList, isInLine c = true) ∧
      denoted? (fun _ => none) (quote "/o'neil \"new\"\\t\\").toList
        = some ("/o'neil \"new\"\\t\\".toList.map Char.toNat) := by
  have hline : ∀ c ∈ "/o'neil \"new\"\\t\\".toList, isInLine c = true := List.all_eq_true.mp (by decide)
  exact ⟨hline, (quote_denotes_value_iff _ _ hline).mpr (.inl (by decide))⟩

/-- In single quotes a backslash and a letter come back as a tab, and a backslash at the end leaves the literal open. -/
theorem quote_changes_backslash :
    denoted? (fun _ => none) (quote "/opt/new\\tools/addr2line").toList
        = some ("/opt/new\tools/addr2line".toList.map Char.toNat) ∧
      "/opt/new\tools/addr2line" ≠ "/opt/new\\tools/addr2line" ∧
      denoted? (fun _ => none) (quote "/opt/addr2line\\").toList = none := by
  decide +kernel

end Bringup.Assignment

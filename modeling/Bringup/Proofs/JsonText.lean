import Bringup.Json.Value
import Bringup.Proofs.JsonReading
import Bringup.Proofs.Utf8

/-!
# Reading written JSON back

* `reading_stringText`: the inside of a written string is read as the string.
* `Reads`: a reader takes a text from the front, after blanks, and leaves the rest.
* `reads_string`, `reads_list`: written strings and lists are read.
-/

namespace Bringup.Json

set_option autoImplicit false

open Bringup.Text Utf8

variable {α : Type}

/-! ## Strings -/

/-- A byte that stands for itself inside a string. -/
def IsPlain (b : UInt8) : Prop := 0x20 ≤ b.toNat ∧ b ≠ byte '"' ∧ b ≠ byte '\\'

theorem scanString_plain {bs : Bytes} (hbs : ∀ b ∈ bs, IsPlain b) (contents rest : Bytes) :
    scanString true .body contents (bs ++ rest) = scanString true .body (bs.reverse ++ contents) rest := by
  induction bs generalizing contents with
  | nil => rfl
  | cons b bs ih =>
    obtain ⟨hlow, hquote, hslash⟩ := hbs b (List.mem_cons_self ..)
    have hcontrol : ¬ b < 0x20 := by
      rw [UInt8.lt_iff_toNat_lt]
      exact Nat.not_lt.mpr hlow
    have hstep : stringStep true contents b .body = .more .body (b :: contents) := by
      simp [stringStep, hquote, hslash, hcontrol]
    rw [List.cons_append, scanString, hstep]
    simp only
    rw [ih fun b hb => hbs b (List.mem_cons_of_mem _ hb)]
    simp

theorem hexDigit?_digitChar : ∀ n < 16, hexDigit? (byte (Nat.digitChar n)) = some n := by decide

theorem utf8EncodeChar_digitChar :
    ∀ n < 16, String.utf8EncodeChar (Nat.digitChar n) = [byte (Nat.digitChar n)] := by decide

theorem scanString_control {n : Nat} (hn : n < 0x20) (contents rest : Bytes) :
    scanString true .body contents (spelling (['\\', 'u', '0', '0'] ++ hexPair n) ++ rest)
      = scanString true .body (codeBytes n ++ contents) rest := by
  have hspelling : spelling (['\\', 'u', '0', '0'] ++ hexPair n) =
      [byte '\\', byte 'u', byte '0', byte '0', byte (Nat.digitChar (n / 16)),
        byte (Nat.digitChar (n % 16))] := by
    simp only [spelling_append, hexPair, spelling_cons, utf8EncodeChar_digitChar (n / 16) (by omega),
      utf8EncodeChar_digitChar (n % 16) (by omega)]
    rfl
  have hzeros : ∀ l, scanString true .body contents (byte '\\' :: byte 'u' :: byte '0' :: byte '0' :: l)
      = scanString true (.hex 1 (some 0) none) contents l := fun _ => rfl
  have hfirst : stringStep true contents (byte (Nat.digitChar (n / 16))) (.hex 1 (some 0) none)
      = .more (.hex 0 (some (n / 16)) none) contents := by
    simp [stringStep, hexDigit?_digitChar (n / 16) (by omega)]
  have hsecond : stringStep true contents (byte (Nat.digitChar (n % 16))) (.hex 0 (some (n / 16)) none)
      = .more .body (codeBytes n ++ contents) := by
    have hvalue : n / 16 * 16 + n % 16 = n := by omega
    have htrail : isTrail n = false := by simp [isTrail]; omega
    have hlead : isLead n = false := by simp [isLead]; omega
    simp [stringStep, hexDigit?_digitChar (n % 16) (by omega), hvalue, afterHex, htrail, hlead]
  rw [hspelling]
  simp only [List.cons_append, List.nil_append]
  rw [hzeros, scanString, hfirst]
  simp only
  rw [scanString, hsecond]

/-- An escaped character is read as the character. -/
theorem scanString_escape (c : Char) (contents rest : Bytes) :
    scanString true .body contents (spelling (escape c) ++ rest)
      = scanString true .body ((String.utf8EncodeChar c).reverse ++ contents) rest := by
  have known : ∀ n, c.toNat = n → c = Char.ofNat n := by
    rintro _ rfl
    exact (Char.ofNat_toNat c).symm
  -- The quote and the backslash, five control characters with names of their own, the other control
  -- characters by number, and what stands for itself.
  rw [escape]
  split
  · next h => rw [beq_iff_eq.mp h]; rfl
  split
  · next h => rw [beq_iff_eq.mp h]; rfl
  split
  · next h => rw [known _ h]; rfl
  split
  · next h => rw [known _ h]; rfl
  split
  · next h => rw [known _ h]; rfl
  split
  · next h => rw [known _ h]; rfl
  split
  · next h => rw [known _ h]; rfl
  split
  · next h => rw [scanString_control h, codeBytes, Char.ofNat_toNat]
  · next hquote hslash _ _ _ _ _ hlow =>
    have hsingle : spelling [c] = String.utf8EncodeChar c := by simp [spelling]
    rw [hsingle]
    refine scanString_plain (fun b hb => ?_) contents rest
    by_cases hascii : c.toNat < 0x80
    · rw [encodeChar_ascii hascii, List.mem_singleton] at hb
      have hb' : b.toNat = c.toNat := by rw [hb, toNat_ofNat_byte (by omega)]
      have differs : ∀ d : Char, ¬ (c == d) = true → d.toNat < 0x80 → b ≠ byte d := by
        rintro d hne hd rfl
        have htoNat : (byte d).toNat = d.toNat := toNat_ofNat_byte (by omega)
        have heq : c = d := Char.ext (UInt32.toNat_inj.mp (hb'.symm.trans htoNat))
        exact hne (beq_iff_eq.mpr heq)
      exact ⟨by omega, differs _ hquote (by decide), differs _ hslash (by decide)⟩
    · have hb := (spells_encode c).not_ascii (by omega) hb
      refine ⟨by omega, ?_, ?_⟩
      · rintro rfl
        exact absurd hb (by decide)
      · rintro rfl
        exact absurd hb (by decide)

theorem scanString_escapes (cs : List Char) (contents rest : Bytes) :
    scanString true .body contents (spelling (cs.flatMap escape ++ ['"']) ++ rest)
      = (.ok (contents.reverse ++ spelling cs), rest) := by
  induction cs generalizing contents with
  | nil =>
    have hspelling : spelling ([].flatMap escape ++ ['"']) = [byte '"'] := rfl
    have hempty : spelling [] = [] := rfl
    rw [hspelling, hempty, List.append_nil]
    rfl
  | cons c cs ih =>
    rw [List.flatMap_cons, List.append_assoc, spelling_append, List.append_assoc, scanString_escape, ih,
      spelling_cons]
    simp

/-- The inside of a written string is read as the string. -/
theorem reading_stringText (s : String) (rest : Bytes) (d : Nat) :
    reading stringText ⟨spelling (s.toList.flatMap escape ++ ['"']) ++ rest, d⟩ = (.ok s, ⟨rest, d⟩) := by
  have hbytes : reading (stringBytes true) ⟨spelling (s.toList.flatMap escape ++ ['"']) ++ rest, d⟩
      = (.ok (encode s), ⟨rest, d⟩) := by
    rw [reading_stringBytes]
    simp only [scanString_escapes]
    rfl
  rw [stringText, reading_bind_of_ok hbytes, decodeLossy_encode]
  rfl

/-! ## Blanks and brackets -/

/-- Nothing but blanks. -/
def Blank (ws : Bytes) : Prop := ∀ b ∈ ws, isBlank b = true

theorem blank_nil : Blank [] := nofun

theorem blank_newline (level : Nat) : Blank (spelling (newline level)) := by
  intro b hb
  rw [spelling, newline, List.mem_flatMap] at hb
  obtain ⟨c, hc, hb⟩ := hb
  rcases List.mem_cons.mp hc with rfl | hc
  · rw [List.mem_singleton.mp hb]
    rfl
  · rw [(List.mem_replicate.mp hc).2] at hb
    rw [List.mem_singleton.mp hb]
    rfl

section

variable {ws : Bytes} {b : UInt8} {d : Nat}

theorem reading_skipBlanks_cons (hws : Blank ws) (hb : isBlank b = false) (rest : Bytes) :
    reading skipBlanks ⟨ws ++ b :: rest, d⟩ = (.ok (some b), ⟨b :: rest, d⟩) := by
  have hdrop : (ws ++ b :: rest).dropWhile isBlank = b :: rest := by
    rw [List.dropWhile_append_of_pos hws, List.dropWhile_cons_of_neg (by simp [hb])]
  rw [reading_skipBlanks]
  simp only [hdrop]
  rfl

theorem reading_firstByte (hws : Blank ws) (hb : isBlank b = false) (rest : Bytes) :
    reading firstByte ⟨ws ++ b :: rest, d⟩ = (.ok b, ⟨b :: rest, d⟩) := by
  rw [firstByte, reading_bind_of_ok (reading_skipBlanks_cons hws hb rest)]
  rfl

theorem reading_colon (rest : Bytes) : reading colon ⟨byte ':' :: rest, d⟩ = (.ok (), ⟨rest, d⟩) := rfl

theorem reading_endList (hws : Blank ws) (rest : Bytes) :
    reading endList ⟨ws ++ byte ']' :: rest, d⟩ = (.ok (), ⟨rest, d⟩) := by
  rw [endList, reading_bind_of_ok (reading_skipBlanks_cons hws rfl rest)]
  rfl

theorem reading_endObject (hws : Blank ws) (rest : Bytes) :
    reading endObject ⟨ws ++ byte '\x7d' :: rest, d⟩ = (.ok (), ⟨rest, d⟩) := by
  rw [endObject, reading_bind_of_ok (reading_skipBlanks_cons hws rfl rest)]
  rfl

/-- The bracket that closes a list or an object. -/
def closing (object : Bool) : UInt8 := byte (if object then '\x7d' else ']')

theorem isBlank_closing (object : Bool) : isBlank (closing object) = false := by
  cases object <;> rfl

theorem reading_separated_end (object first : Bool) (hws : Blank ws) (rest : Bytes) :
    reading (separated object first) ⟨ws ++ closing object :: rest, d⟩
      = (.ok none, ⟨closing object :: rest, d⟩) := by
  rw [separated, reading_bind_of_ok (reading_skipBlanks_cons hws (isBlank_closing object) rest)]
  simp only [closing, BEq.rfl, if_true]
  rfl

theorem reading_separated_first {object : Bool} (hws : Blank ws) (hb : isBlank b = false)
    (hclose : b ≠ closing object) (rest : Bytes) :
    reading (separated object true) ⟨ws ++ b :: rest, d⟩ = (.ok (some b), ⟨b :: rest, d⟩) := by
  rw [separated, reading_bind_of_ok (reading_skipBlanks_cons hws hb rest)]
  have hne : (b == byte (if object then '\x7d' else ']')) = false := beq_eq_false_iff_ne.mpr hclose
  simp only [hne]
  rfl

theorem reading_separated_next {object : Bool} (hws : Blank ws) (hb : isBlank b = false)
    (hclose : b ≠ closing object) (rest : Bytes) :
    reading (separated object false) ⟨byte ',' :: (ws ++ b :: rest), d⟩ = (.ok (some b), ⟨b :: rest, d⟩) := by
  have hcomma : reading skipBlanks ⟨byte ',' :: (ws ++ b :: rest), d⟩
      = (.ok (some (byte ',')), ⟨byte ',' :: (ws ++ b :: rest), d⟩) :=
    reading_skipBlanks_cons blank_nil rfl _
  have hne : (b == byte (if object then '\x7d' else ']')) = false := beq_eq_false_iff_ne.mpr hclose
  have hne' : (byte ',' == byte (if object then '\x7d' else ']')) = false := by cases object <;> rfl
  rw [separated, reading_bind_of_ok hcomma]
  simp only [hne', BEq.rfl, if_true, Bool.false_eq_true, if_false]
  have hskip : reading skip ⟨byte ',' :: (ws ++ b :: rest), d⟩ = (.ok (), ⟨ws ++ b :: rest, d⟩) := rfl
  rw [reading_bind_of_ok hskip, reading_bind_of_ok (reading_skipBlanks_cons hws hb rest)]
  simp only [hne]
  rfl

theorem reading_nested_of_ok {body : Read α} {bs l : Bytes} {a : α} (hd : 1 < d)
    (hbody : reading body ⟨bs, d - 1⟩ = (.ok a, ⟨l, d - 1⟩)) :
    reading (nested body) ⟨bs, d⟩ = (.ok a, ⟨l, d⟩) := by
  have hdepth : d - 1 + 1 = d := by omega
  rw [reading_nested, if_neg (by omega), hbody]
  simp only [hdepth]

theorem reading_bracketed {body : Read α} {close : Read Unit} {bs l rest : Bytes} {a : α} (hd : 1 < d)
    (hbody : reading body ⟨bs, d - 1⟩ = (.ok a, ⟨l, d - 1⟩))
    (hclose : reading close ⟨l, d⟩ = (.ok (), ⟨rest, d⟩)) :
    reading (placed (closedBy (nested body) close)) ⟨bs, d⟩ = (.ok a, ⟨rest, d⟩) := by
  rw [placed_ok, reading_closedBy, reading_nested_of_ok hd hbody]
  simp only [hclose]

end

/-! ## Values -/

/-- The reader takes the text from the front, after blanks, and leaves what follows. It opens at most so
many levels. -/
structure Reads (levels : Nat) (R : Read α) (text : Bytes) (a : α) : Prop where
  starts : ∃ b rest, text = b :: rest ∧ isBlank b = false ∧ b ≠ closing false
  reads : ∀ ws rest d, Blank ws → levels < d → reading R ⟨ws ++ (text ++ rest), d⟩ = (.ok a, ⟨rest, d⟩)

theorem spelling_quoted (s : String) :
    spelling (quoted s) = byte '"' :: spelling (s.toList.flatMap escape ++ ['"']) := rfl

theorem reading_stringAs (expected : String) (convert : String → Except Mismatch α) (s : String)
    {ws : Bytes} (hws : Blank ws) (rest : Bytes) (d : Nat) :
    reading (stringAs expected convert) ⟨ws ++ (spelling (quoted s) ++ rest), d⟩ =
      match convert s with
      | .ok a => (.ok a, ⟨rest, d⟩)
      | .error reason => (.error ⟨.mismatch reason, some rest.length⟩, ⟨rest, d⟩) := by
  have hskip : ∀ l, reading skip ⟨byte '"' :: l, d⟩ = (.ok (), ⟨l, d⟩) := fun _ => rfl
  rw [stringAs, spelling_quoted, List.cons_append, reading_bind_of_ok (reading_firstByte hws rfl _),
    if_pos BEq.rfl, placed, reading_tryCatch, reading_bind_of_ok (hskip _),
    reading_bind_of_ok (reading_stringText s rest d)]
  cases convert s <;> rfl

theorem reads_string {expected : String} {convert : String → Except Mismatch α} {s : String} {a : α}
    (h : convert s = .ok a) : Reads 0 (stringAs expected convert) (spelling (quoted s)) a := by
  refine ⟨⟨_, _, spelling_quoted s, rfl, by decide⟩, fun ws rest d hws _ => ?_⟩
  rw [reading_stringAs expected convert s hws, h]

theorem Reads.mono {m n : Nat} {R : Read α} {text : Bytes} {a : α} (h : Reads m R text a) (hmn : m ≤ n) :
    Reads n R text a :=
  ⟨h.starts, fun ws rest d hws hd => h.reads ws rest d hws (Nat.lt_of_le_of_lt hmn hd)⟩

theorem reading_items_end {item : Read α} {n : Nat} {first : Bool} {s s₁ : Input}
    (h : reading (separated false first) s = (.ok none, s₁)) :
    reading (items item (n + 1) first) s = (.ok [], s₁) := by
  rw [items, reading_bind_of_ok h]
  rfl

theorem reading_items_cons {item : Read α} {n : Nat} {first : Bool} {s s₁ s₂ s₃ : Input} {b : UInt8}
    {x : α} {xs : List α} (h : reading (separated false first) s = (.ok (some b), s₁))
    (hitem : reading item s₁ = (.ok x, s₂)) (hrest : reading (items item n false) s₂ = (.ok xs, s₃)) :
    reading (items item (n + 1) first) s = (.ok (x :: xs), s₃) := by
  rw [items, reading_bind_of_ok h]
  simp only
  rw [reading_bind_of_ok hitem, reading_bind_of_ok hrest]
  rfl

theorem Reads.here {levels d : Nat} {R : Read α} {text : Bytes} {a : α} (h : Reads levels R text a)
    (hd : levels < d) (rest : Bytes) : reading R ⟨text ++ rest, d⟩ = (.ok a, ⟨rest, d⟩) :=
  h.reads [] rest d blank_nil hd

/-- The items of a list after the first one. -/
theorem reading_items {item : Read α} {text : α → Bytes} {levels d fuel : Nat} {xs : List α}
    (hxs : ∀ x ∈ xs, Reads levels item (text x) x) (hd : levels < d) {nl ws : Bytes} (hnl : Blank nl)
    (hws : Blank ws) (rest : Bytes) (hfuel : xs.length < fuel) :
    reading (items item fuel false)
        ⟨xs.flatMap (fun x => byte ',' :: (nl ++ text x)) ++ (ws ++ byte ']' :: rest), d⟩
      = (.ok xs, ⟨byte ']' :: rest, d⟩) := by
  induction xs generalizing fuel with
  | nil =>
    obtain ⟨n, rfl⟩ : ∃ n, fuel = n + 1 := ⟨fuel - 1, by omega⟩
    exact reading_items_end (reading_separated_end false false hws rest)
  | cons x xs ih =>
    obtain ⟨n, rfl⟩ : ∃ n, fuel = n + 1 := ⟨fuel - 1, by omega⟩
    have hx := hxs x (List.mem_cons_self ..)
    obtain ⟨b, t, ht, hblank, hclose⟩ := hx.starts
    have hrest := ih (fun y hy => hxs y (List.mem_cons_of_mem _ hy)) (Nat.lt_of_succ_lt_succ hfuel)
    refine reading_items_cons (b := b) ?_ (hx.here hd _) hrest
    rw [List.flatMap_cons, ht]
    simp only [List.cons_append, List.append_assoc]
    exact reading_separated_next hnl hblank hclose _

theorem length_le_flatMap {f : α → Bytes} (hf : ∀ x, f x ≠ []) (xs : List α) :
    xs.length ≤ (xs.flatMap f).length := by
  induction xs with
  | nil => exact Nat.le_refl 0
  | cons x xs ih =>
    have := List.length_pos_iff.mpr (hf x)
    rw [List.flatMap_cons, List.length_append, List.length_cons]
    omega

theorem spelling_renderItems (level : Nat) (items : List Json) :
    spelling (renderItems level items) =
      items.flatMap fun x => byte ',' :: (spelling (newline level) ++ spelling (render level x)) := by
  induction items with
  | nil => rfl
  | cons x items ih =>
    rw [renderItems, List.flatMap_cons, ← ih, spelling_cons, spelling_append, spelling_append]
    rfl

theorem reading_list {item : Read α} {ws bs rest : Bytes} {d : Nat} {xs : List α} (hws : Blank ws)
    (hd : 1 < d)
    (hitems : reading (items item (bs.length + 1) true) ⟨bs, d - 1⟩ = (.ok xs, ⟨byte ']' :: rest, d - 1⟩)) :
    reading (list item) ⟨ws ++ byte '[' :: bs, d⟩ = (.ok xs, ⟨rest, d⟩) := by
  rw [list, reading_bind_of_ok (reading_firstByte hws rfl _), if_pos BEq.rfl]
  exact reading_bracketed hd hitems (reading_endList blank_nil rest)

/-- A written list is read. -/
theorem reads_list {item : Read α} {value : α → Json} {levels level : Nat} {xs : List α}
    (hxs : ∀ x ∈ xs, Reads levels item (spelling (render (level + 1) (value x))) x) :
    Reads (levels + 1) (list item) (spelling (render level (.arr (xs.map value)))) xs := by
  cases xs with
  | nil =>
    refine ⟨⟨byte '[', [byte ']'], rfl, rfl, by decide⟩, fun ws rest d hws hd => ?_⟩
    refine reading_list hws (by omega) ?_
    exact reading_items_end (reading_separated_end false true blank_nil rest)
  | cons x xs =>
    let its := xs.flatMap fun y =>
      byte ',' :: (spelling (newline (level + 1)) ++ spelling (render (level + 1) (value y)))
    have htext : spelling (render level (.arr ((x :: xs).map value))) =
        byte '[' :: (spelling (newline (level + 1)) ++ (spelling (render (level + 1) (value x))
          ++ (its ++ (spelling (newline level) ++ [byte ']'])))) := by
      rw [List.map_cons, render, spelling_cons]
      simp only [spelling_append, spelling_renderItems, List.flatMap_map, List.append_assoc]
      rfl
    have hx := hxs x (List.mem_cons_self ..)
    obtain ⟨b, t, ht, hblank, hclose⟩ := hx.starts
    rw [htext]
    refine ⟨⟨_, _, rfl, rfl, by decide⟩, fun ws rest d hws hd => ?_⟩
    rw [List.cons_append]
    refine reading_list hws (by omega) ?_
    have hbs : spelling (newline (level + 1)) ++ (spelling (render (level + 1) (value x))
          ++ (its ++ (spelling (newline level) ++ [byte ']']))) ++ rest
        = spelling (newline (level + 1)) ++ (spelling (render (level + 1) (value x))
          ++ (its ++ (spelling (newline level) ++ byte ']' :: rest))) := by
      simp
    have hits : xs.length ≤ its.length := length_le_flatMap (fun y => List.cons_ne_nil _ _) xs
    rw [hbs]
    refine reading_items_cons (b := b) ?_ (hx.here (by omega) _)
      (reading_items (fun y hy => hxs y (List.mem_cons_of_mem _ hy)) (by omega)
        (blank_newline (level + 1)) (blank_newline level) rest ?_)
    · rw [ht, List.cons_append]
      exact reading_separated_first (blank_newline _) hblank hclose _
    · simp only [List.length_append, List.length_cons]
      omega

/-! ## Objects and variants -/

theorem reading_nameAt (name : String) (rest : Bytes) (d : Nat) :
    reading (nameAt (byte '"')) ⟨spelling (quoted name) ++ rest, d⟩ = (.ok name, ⟨rest, d⟩) := by
  have hskip : reading skip ⟨spelling (quoted name) ++ rest, d⟩
      = (.ok (), ⟨spelling (name.toList.flatMap escape ++ ['"']) ++ rest, d⟩) := rfl
  rw [nameAt, if_pos BEq.rfl, reading_bind_of_ok hskip, reading_stringText]

theorem reading_members {step : α → String → Read α} {n : Nat} {first : Bool} {a : α} {s : Input}
    {name : String} {rest : Bytes} {d : Nat}
    (h : reading (separated true first) s = (.ok (some (byte '"')), ⟨spelling (quoted name) ++ rest, d⟩)) :
    reading (members step (n + 1) first a) s
      = reading (step a name >>= fun a => members step n false a) ⟨rest, d⟩ := by
  rw [members, reading_bind_of_ok h]
  exact reading_bind_of_ok (reading_nameAt name rest d)

theorem reading_members_first {step : α → String → Read α} {n : Nat} {a : α} {name : String} {ws : Bytes}
    (hws : Blank ws) (rest : Bytes) (d : Nat) :
    reading (members step (n + 1) true a) ⟨ws ++ (spelling (quoted name) ++ rest), d⟩
      = reading (step a name >>= fun a => members step n false a) ⟨rest, d⟩ :=
  reading_members (reading_separated_first hws rfl (by decide) _)

theorem reading_members_next {step : α → String → Read α} {n : Nat} {a : α} {name : String} {ws : Bytes}
    (hws : Blank ws) (rest : Bytes) (d : Nat) :
    reading (members step (n + 1) false a) ⟨byte ',' :: (ws ++ (spelling (quoted name) ++ rest)), d⟩
      = reading (step a name >>= fun a => members step n false a) ⟨rest, d⟩ :=
  reading_members (reading_separated_next hws rfl (by decide) _)

theorem reading_members_end {step : α → String → Read α} {n : Nat} {first : Bool} {a : α} {ws : Bytes}
    (hws : Blank ws) (rest : Bytes) (d : Nat) :
    reading (members step (n + 1) first a) ⟨ws ++ byte '\x7d' :: rest, d⟩
      = (.ok a, ⟨byte '\x7d' :: rest, d⟩) := by
  rw [members]
  exact reading_bind_of_ok (reading_separated_end true first hws rest)

theorem blank_space : Blank [byte ' '] := by
  intro b hb
  rw [List.mem_singleton.mp hb]
  rfl

theorem reading_field {levels d : Nat} {value : Read α} {text : Bytes} {a : α} (name : String)
    (h : Reads levels value text a) (hd : levels < d) (rest : Bytes) :
    reading (field name value none) ⟨byte ':' :: byte ' ' :: (text ++ rest), d⟩
      = (.ok (some a), ⟨rest, d⟩) := by
  have hvalue : reading value ⟨byte ' ' :: (text ++ rest), d⟩ = (.ok a, ⟨rest, d⟩) :=
    h.reads [byte ' '] rest d blank_space hd
  rw [field, reading_bind_of_ok (reading_colon _), reading_bind_of_ok hvalue]
  rfl

section

variable {names : List String} {alone carrying : String → Read α} {name : String} {a : α}

theorem reads_variantName (h : names.contains name = true) :
    Reads 0 (variantName names) (spelling (quoted name)) name :=
  reads_string (by rw [if_pos h])

/-- A variant that is written as its name alone. -/
theorem reads_alone (h : names.contains name = true) (halone : alone name = pure a) :
    Reads 0 (variant names alone carrying) (spelling (quoted name)) a := by
  refine ⟨(reads_variantName h).starts, fun ws rest d hws hd => ?_⟩
  have hname := (reads_variantName h).here hd rest
  rw [spelling_quoted, List.cons_append] at hname ⊢
  rw [variant, reading_bind_of_ok (reading_firstByte hws rfl _), if_neg (by decide), if_pos BEq.rfl,
    reading_bind_of_ok hname, halone]
  rfl

theorem reading_carriedName (h : names.contains name = true) {ws : Bytes} (hws : Blank ws)
    (rest : Bytes) (d : Nat) :
    reading (carriedName names) ⟨ws ++ (spelling (quoted name) ++ rest), d⟩ = (.ok name, ⟨rest, d⟩) := by
  have hname := reading_stringAs "variant identifier"
    (fun name => if names.contains name then .ok name else .error (.unknownVariant name names))
    name blank_nil rest d
  rw [if_pos h] at hname
  rw [spelling_quoted, List.cons_append] at hname ⊢
  rw [carriedName, reading_bind_of_ok (reading_skipBlanks_cons hws rfl _)]
  exact hname

/-- A variant that is written as an object with its name. -/
theorem reads_carrying {levels level : Nat} {value : Json} (h : names.contains name = true)
    (hvalue : Reads levels (carrying name) (spelling (render (level + 1) value)) a) :
    Reads (levels + 1) (variant names alone carrying) (spelling (render level (.obj [(name, value)]))) a := by
  let text := spelling (render (level + 1) value)
  have htext : spelling (render level (.obj [(name, value)])) =
      byte '\x7b' :: (spelling (newline (level + 1)) ++ (spelling (quoted name)
        ++ (byte ':' :: byte ' ' :: (text ++ (spelling (newline level) ++ [byte '\x7d']))))) := by
    rw [render, renderMembers, spelling_cons]
    simp only [spelling_append, List.append_assoc]
    rfl
  rw [htext]
  refine ⟨⟨_, _, rfl, rfl, by decide⟩, fun ws rest d hws hd => ?_⟩
  have hbody : reading (do
      skip
      let name ← carriedName names
      colon
      carrying name) ⟨byte '\x7b' :: (spelling (newline (level + 1)) ++ (spelling (quoted name)
        ++ (byte ':' :: byte ' ' :: (text ++ (spelling (newline level) ++ byte '\x7d' :: rest))))), d - 1⟩
      = (.ok a, ⟨spelling (newline level) ++ byte '\x7d' :: rest, d - 1⟩) := by
    rw [reading_bind_of_ok (reading_skip _)]
    simp only [List.tail_cons]
    rw [reading_bind_of_ok (reading_carriedName h (blank_newline _) _ _),
      reading_bind_of_ok (reading_colon _)]
    exact hvalue.reads [byte ' '] _ _ blank_space (by omega)
  simp only [List.cons_append, List.append_assoc, List.nil_append]
  rw [variant, reading_bind_of_ok (reading_firstByte hws rfl _), if_pos BEq.rfl,
    reading_bind_of_ok (reading_nested_of_ok (by omega) hbody),
    reading_bind_of_ok (reading_skipBlanks_cons (blank_newline level) rfl rest)]
  rfl

end

end Bringup.Json

import Bringup.Json.Decode

/-!
# Reading more of a text

A reader takes its text from the front, so what it has made of a part does not change when the rest of the
text arrives, unless it stopped because nothing was left.

* `reading`: what a reader comes to on some input.
* `Continues`, `Steady`: with more text, and perhaps more fuel, a reader comes to the same.
* `Closes`: the same for a reader that ends with a bracket, which it has seen.
* `readAll_torn`: no proper beginning of a text that ends in such a bracket is read.
-/

namespace Bringup.Json

set_option autoImplicit false

open Bringup.Text

variable {α β : Type}

/-- What a reader comes to, and the input that it leaves. -/
def reading (R : Read α) (s : Input) : Except Fault α × Input := R.run.run s

/-! ## Readers as functions of their input -/

theorem reading_bind (R : Read α) (f : α → Read β) (s : Input) :
    reading (R >>= f) s =
      match reading R s with
      | (.ok a, s) => reading (f a) s
      | (.error fault, s) => (.error fault, s) := by
  simp only [reading, ExceptT.run_bind, StateT.run_bind]
  generalize StateT.run (ExceptT.run R) s = out
  obtain ⟨result, s⟩ := out
  cases result <;> rfl

theorem reading_get (s : Input) : reading get s = (.ok s, s) := rfl

theorem reading_set (s' s : Input) : reading (set s' : Read PUnit) s = (.ok (), s') := rfl

theorem reading_skip (s : Input) : reading skip s = (.ok (), { s with rest := s.rest.tail }) := rfl

theorem reading_takeWhile (cls : UInt8 → Bool) (s : Input) :
    reading (takeWhile cls) s =
      (.ok (s.rest.takeWhile cls), { s with rest := s.rest.dropWhile cls }) := rfl

theorem reading_skipBlanks (s : Input) :
    reading skipBlanks s =
      (.ok (s.rest.dropWhile isBlank).head?, { s with rest := s.rest.dropWhile isBlank }) := rfl

theorem bind_ok {R : Read α} {f : α → Read β} {s s' : Input} {b : β}
    (h : reading (R >>= f) s = (.ok b, s')) :
    ∃ a s₁, reading R s = (.ok a, s₁) ∧ reading (f a) s₁ = (.ok b, s') := by
  rw [reading_bind] at h
  split at h
  · next a s₁ ha => exact ⟨a, s₁, ha, h⟩
  · cases h

theorem reading_bind_of_ok {R : Read α} {f : α → Read β} {s s₁ : Input} {a : α}
    (h : reading R s = (.ok a, s₁)) : reading (R >>= f) s = reading (f a) s₁ := by
  rw [reading_bind, h]

/-- The reader has no success. -/
def Fails (R : Read α) : Prop := ∀ s a s', reading R s ≠ (.ok a, s')

theorem Fails.bind {R : Read α} {f : α → Read β} (hf : ∀ a, Fails (f a)) : Fails (R >>= f) := by
  intro s b s' h
  obtain ⟨a, s₁, _, h⟩ := bind_ok h
  exact hf a s₁ b s' h

theorem Fails.before {R : Read α} (hR : Fails R) (f : α → Read β) : Fails (R >>= f) := by
  intro s b s' h
  obtain ⟨a, s₁, hread, _⟩ := bind_ok h
  exact hR s a s₁ hread

theorem fails_throw (fault : Fault) : Fails (throw fault : Read α) := nofun

theorem fails_failHere (cause : Cause) : Fails (failHere cause : Read α) := .bind fun _ => fails_throw _

theorem fails_failAhead (cause : Cause) : Fails (failAhead cause : Read α) := .bind fun _ => fails_throw _

theorem fails_failUnplaced (reason : Mismatch) : Fails (failUnplaced reason : Read α) := fails_throw _

theorem reading_tryCatch (R : Read α) (handle : Fault → Read α) (s : Input) :
    reading (tryCatch R handle) s =
      match reading R s with
      | (.ok a, s) => (.ok a, s)
      | (.error fault, s) => reading (handle fault) s := by
  simp only [reading, tryCatch, tryCatchThe, MonadExceptOf.tryCatch, ExceptT.tryCatch, ExceptT.run,
    ExceptT.mk, StateT.run_bind]
  generalize StateT.run R s = out
  obtain ⟨result, s⟩ := out
  cases result <;> rfl

theorem placed_ok {R : Read α} {s s' : Input} {a : α} :
    reading (placed R) s = (.ok a, s') ↔ reading R s = (.ok a, s') := by
  rw [placed, reading_tryCatch]
  generalize reading R s = out
  obtain ⟨result, s₁⟩ := out
  cases result with
  | ok a => exact Iff.rfl
  | error fault =>
    obtain ⟨cause, left⟩ := fault
    cases left with
    | none => exact ⟨nofun, nofun⟩
    | some n => exact ⟨nofun, nofun⟩

theorem reading_closedBy (body : Read α) (close : Read Unit) (s : Input) :
    reading (closedBy body close) s =
      match reading body s with
      | (.ok a, s) =>
        match reading close s with
        | (.ok (), s) => (.ok a, s)
        | (.error fault, s) => (.error fault, s)
      | (.error fault, s) => (.error fault, (reading close s).2) := by
  simp only [reading, closedBy, ExceptT.run_mk, StateT.run_bind]
  generalize StateT.run (ExceptT.run body) s = out
  obtain ⟨result, s⟩ := out
  cases result with
  | ok a =>
    dsimp only [bind]
    generalize StateT.run (ExceptT.run close) s = end?
    obtain ⟨closed, s⟩ := end?
    cases closed <;> rfl
  | error fault => rfl

theorem reading_nested (body : Read α) (bs : Bytes) (d : Nat) :
    reading (nested body) ⟨bs, d⟩ =
      if d - 1 = 0 then (.error ⟨.tooDeep, some (bs.length - 1)⟩, ⟨bs, d - 1⟩)
      else match reading body ⟨bs, d - 1⟩ with
        | (.ok a, s) => (.ok a, ⟨s.rest, s.depth + 1⟩)
        | (.error fault, s) => (.error fault, s) := by
  have hlevel : reading (modify fun s => { s with depth := s.depth - 1 } : Read PUnit) ⟨bs, d⟩
      = (.ok (), ⟨bs, d - 1⟩) := rfl
  rw [nested, reading_bind_of_ok hlevel, reading_bind_of_ok (reading_get _)]
  dsimp only
  split
  · rfl
  · rw [reading_bind]
    rfl

theorem closedBy_ok {body : Read α} {close : Read Unit} {s s' : Input} {a : α}
    (h : reading (closedBy body close) s = (.ok a, s')) :
    ∃ s₁, reading body s = (.ok a, s₁) ∧ reading close s₁ = (.ok (), s') := by
  rw [reading_closedBy] at h
  split at h
  · next a s₁ hbody =>
    split at h
    · next s₂ hclose =>
      cases h
      exact ⟨s₁, hbody, hclose⟩
    · cases h
  · cases h

theorem nested_ok {body : Read α} {bs : Bytes} {d : Nat} {a : α} {s' : Input}
    (h : reading (nested body) ⟨bs, d⟩ = (.ok a, s')) :
    d - 1 ≠ 0 ∧ ∃ s₁, reading body ⟨bs, d - 1⟩ = (.ok a, s₁) ∧ s' = ⟨s₁.rest, s₁.depth + 1⟩ := by
  rw [reading_nested] at h
  split at h
  · cases h
  · next hd =>
    split at h
    · next a s₁ hbody =>
      cases h
      exact ⟨hd, s₁, hbody, rfl⟩
    · cases h

/-! ## More text -/

/-- What `R` makes of a text, leaving something of it, `R'` makes of the text with more behind it. -/
structure Continues (R R' : Read α) : Prop where
  /-- Where nothing is left, nothing comes back. -/
  nil : ∀ d a s', reading R ⟨[], d⟩ = (.ok a, s') → s'.rest = []
  more : ∀ bs d a l d', reading R ⟨bs, d⟩ = (.ok a, ⟨l, d'⟩) → l ≠ [] →
    ∀ rest, reading R' ⟨bs ++ rest, d⟩ = (.ok a, ⟨l ++ rest, d'⟩)

/-- More text does not change what the reader makes of the text that it had. -/
abbrev Steady (R : Read α) : Prop := Continues R R

/-- The reader stops at something that it has seen. -/
def Closes (R : Read α) : Prop :=
  ∀ bs d a l d', reading R ⟨bs, d⟩ = (.ok a, ⟨l, d'⟩) →
    bs ≠ [] ∧ ∀ rest, reading R ⟨bs ++ rest, d⟩ = (.ok a, ⟨l ++ rest, d'⟩)

theorem Fails.continues {R R' : Read α} (h : Fails R) : Continues R R' :=
  ⟨fun _ _ _ hok => absurd hok (h _ _ _), fun _ _ _ _ _ hok => absurd hok (h _ _ _)⟩

theorem Fails.closes {R : Read α} (h : Fails R) : Closes R :=
  fun _ _ _ _ _ hok => absurd hok (h _ _ _)

theorem Closes.steady {R : Read α} (h : Closes R) : Steady R :=
  ⟨fun d a _ hok => absurd rfl (h [] d a _ _ hok).1, fun _ _ _ _ _ hok _ => (h _ _ _ _ _ hok).2⟩

theorem steady_pure (a : α) : Steady (pure a : Read α) := by
  constructor
  · intro d b s' h
    cases h
    rfl
  · intro bs d b l d' h _ rest
    cases h
    rfl

theorem Continues.bind {R R' : Read α} {f f' : α → Read β} (hR : Continues R R')
    (hf : ∀ a, Continues (f a) (f' a)) : Continues (R >>= f) (R' >>= f') := by
  constructor
  · intro d b s' h
    obtain ⟨a, ⟨l, d₁⟩, hread, h⟩ := bind_ok h
    have hnil : l = [] := hR.nil _ _ _ hread
    subst hnil
    exact (hf a).nil _ _ _ h
  · intro bs d b l d' h hl rest
    obtain ⟨a, ⟨l₁, d₁⟩, hread, h⟩ := bind_ok h
    have hl₁ : l₁ ≠ [] := by
      rintro rfl
      exact hl ((hf a).nil _ _ _ h)
    rw [reading_bind_of_ok (hR.more _ _ _ _ _ hread hl₁ rest)]
    exact (hf a).more _ _ _ _ _ h hl rest

theorem Closes.bind {R : Read α} {f : α → Read β} (hR : Steady R) (hf : ∀ a, Closes (f a)) :
    Closes (R >>= f) := by
  intro bs d b l d' h
  obtain ⟨a, ⟨l₁, d₁⟩, hread, h⟩ := bind_ok h
  obtain ⟨hl₁, hmore⟩ := hf a _ _ _ _ _ h
  refine ⟨?_, fun rest => ?_⟩
  · rintro rfl
    exact hl₁ (hR.nil _ _ _ hread)
  · rw [reading_bind_of_ok (hR.more _ _ _ _ _ hread hl₁ rest)]
    exact hmore rest

theorem Continues.ite {p : Prop} [Decidable p] {R R' T T' : Read α} (h : Continues R R')
    (h' : Continues T T') : Continues (if p then R else T) (if p then R' else T') := by
  split
  · exact h
  · exact h'

theorem Closes.ite {p : Prop} [Decidable p] {R T : Read α} (h : Closes R) (h' : Closes T) :
    Closes (if p then R else T) := by
  split
  · exact h
  · exact h'

theorem Continues.placed {R R' : Read α} (h : Continues R R') : Continues (placed R) (placed R') :=
  ⟨fun d a s' hok => h.nil d a s' (placed_ok.mp hok),
    fun _ _ _ _ _ hok hl rest => placed_ok.mpr (h.more _ _ _ _ _ (placed_ok.mp hok) hl rest)⟩

theorem Closes.placed {R : Read α} (h : Closes R) : Closes (placed R) := by
  intro bs d a l d' hok
  obtain ⟨hbs, hmore⟩ := h _ _ _ _ _ (placed_ok.mp hok)
  exact ⟨hbs, fun rest => placed_ok.mpr (hmore rest)⟩

theorem Closes.closedBy {body : Read α} {close : Read Unit} (hbody : Steady body)
    (hclose : Closes close) : Closes (closedBy body close) := by
  intro bs d a l d' hok
  obtain ⟨⟨l₁, d₁⟩, hread, hend⟩ := closedBy_ok hok
  obtain ⟨hl₁, hmore⟩ := hclose _ _ _ _ _ hend
  refine ⟨?_, fun rest => ?_⟩
  · rintro rfl
    exact hl₁ (hbody.nil _ _ _ hread)
  · rw [reading_closedBy, hbody.more _ _ _ _ _ hread hl₁ rest]
    simp only [hmore rest]

theorem Continues.nested {body body' : Read α} (h : Continues body body') :
    Continues (nested body) (nested body') := by
  constructor
  · intro d a s' hok
    obtain ⟨_, s₁, hread, rfl⟩ := nested_ok hok
    have hnil : s₁.rest = [] := h.nil _ _ _ hread
    exact hnil
  · intro bs d a l d' hok hl rest
    obtain ⟨hd, ⟨l₁, d₁⟩, hread, hs⟩ := nested_ok hok
    cases hs
    rw [reading_nested, if_neg hd, h.more _ _ _ _ _ hread hl rest]

/-! ## Bytes, blanks and strings -/

theorem steady_peek : Steady peek := by
  constructor
  · intro d a s' h
    cases h
    rfl
  · intro bs d a l d' h hl rest
    cases h
    cases bs with
    | nil => exact absurd rfl hl
    | cons b bs => rfl

theorem steady_skip : Steady skip := by
  constructor
  · intro d a s' h
    cases h
    rfl
  · intro bs d a l d' h hl rest
    cases h
    cases bs with
    | nil => exact absurd rfl hl
    | cons b bs => rfl

theorem steady_next : Steady next := steady_peek.bind fun _ => steady_skip.bind fun _ => steady_pure _

theorem dropWhile_append_of_ne_nil {cls : UInt8 → Bool} {bs : Bytes} (h : bs.dropWhile cls ≠ [])
    (rest : Bytes) : (bs ++ rest).dropWhile cls = bs.dropWhile cls ++ rest := by
  rw [List.dropWhile_append, if_neg (by simpa using h)]

theorem takeWhile_append_of_ne_nil {cls : UInt8 → Bool} {bs : Bytes} (h : bs.dropWhile cls ≠ [])
    (rest : Bytes) : (bs ++ rest).takeWhile cls = bs.takeWhile cls := by
  have hlen : (bs.takeWhile cls).length + (bs.dropWhile cls).length = bs.length := by
    rw [← List.length_append, List.takeWhile_append_dropWhile]
  have hpos := List.length_pos_iff.mpr h
  rw [List.takeWhile_append, if_neg (by omega)]

theorem steady_takeWhile (cls : UInt8 → Bool) : Steady (takeWhile cls) := by
  constructor
  · intro d a s' h
    cases h
    rfl
  · intro bs d a l d' h hl rest
    cases h
    rw [reading_takeWhile]
    simp only [takeWhile_append_of_ne_nil hl, dropWhile_append_of_ne_nil hl]

theorem steady_skipBlanks : Steady skipBlanks := (steady_takeWhile isBlank).bind fun _ => steady_peek

theorem closes_bracket {k : Option UInt8 → Read Unit} (hnone : Fails (k none))
    (hsome : ∀ b, k (some b) = skip ∨ Fails (k (some b))) : Closes (skipBlanks >>= k) := by
  intro bs d a l d' h
  rw [reading_bind_of_ok (reading_skipBlanks _)] at h
  cases hdrop : bs.dropWhile isBlank with
  | nil =>
    rw [hdrop] at h
    exact absurd h (hnone _ _ _)
  | cons b bs' =>
    have hne : bs.dropWhile isBlank ≠ [] := by rw [hdrop]; exact List.cons_ne_nil _ _
    rw [hdrop, List.head?_cons] at h
    rcases hsome b with hskip | hfails
    · rw [hskip, reading_skip] at h
      cases h
      refine ⟨by rintro rfl; exact hne rfl, fun rest => ?_⟩
      rw [reading_bind_of_ok (reading_skipBlanks _), dropWhile_append_of_ne_nil hne, hdrop,
        List.cons_append, List.head?_cons, hskip, reading_skip]
      rfl
    · exact absurd h (hfails _ _ _)

theorem scanString_append {strict : Bool} {mode : StringMode} {contents bs c l : Bytes}
    (h : scanString strict mode contents bs = (.ok c, l)) (rest : Bytes) :
    scanString strict mode contents (bs ++ rest) = (.ok c, l ++ rest) := by
  induction bs generalizing mode contents with
  | nil => cases h
  | cons b bs ih =>
    rw [scanString] at h
    rw [List.cons_append, scanString]
    split at h
    · exact ih h
    · cases h
      rfl
    · cases h

theorem reading_stringBytes (strict : Bool) (s : Input) :
    reading (stringBytes strict) s =
      match scanString strict .body [] s.rest with
      | (.ok contents, rest) => (.ok contents, { s with rest })
      | (.error cause, rest) => (.error ⟨cause, some rest.length⟩, { s with rest }) := by
  rw [stringBytes, reading_bind_of_ok (reading_get s), reading_bind_of_ok (reading_set _ _)]
  generalize scanString strict .body [] s.rest = out
  obtain ⟨result, rest⟩ := out
  cases result <;> rfl

theorem closes_stringBytes (strict : Bool) : Closes (stringBytes strict) := by
  intro bs d a l d' h
  rw [reading_stringBytes] at h
  split at h
  · next contents rest' hscan =>
    cases h
    refine ⟨?_, fun rest => ?_⟩
    · rintro rfl
      cases hscan
    rw [reading_stringBytes]
    simp only [scanString_append hscan rest]
  · cases h

theorem steady_stringText : Steady stringText :=
  (closes_stringBytes true).steady.bind fun _ => steady_pure _

theorem steady_word (letters : List Char) : Steady (word letters) := by
  induction letters with
  | nil => exact steady_pure ()
  | cons c letters ih =>
    refine steady_next.bind fun b => ?_
    cases b with
    | none => exact (fails_failHere _).continues
    | some b => exact ih.ite (fails_failHere _).continues

/-! ## Values that are passed over -/

theorem steady_skipExponent : Steady skipExponent := by
  refine steady_skip.bind fun _ => steady_peek.bind fun sign => ?_
  cases sign
  case' some => refine (steady_skip.bind fun _ => ?_).ite ?_
  -- With a sign or without, digits follow.
  all_goals
    refine steady_next.bind fun b => ?_
    cases b with
    | none => exact (fails_failHere _).continues
    | some b =>
      exact ((steady_takeWhile isDigit).bind fun _ => steady_pure ()).ite (fails_failHere _).continues

theorem steady_skipFractionAndExponent : Steady skipFractionAndExponent := by
  refine steady_peek.bind fun point => Continues.ite
    (steady_skip.bind fun _ => (steady_takeWhile isDigit).bind fun digits =>
      Continues.ite ((fails_failAhead _).before _).continues ?_) ?_
  -- With a fraction or without, an exponent may follow.
  all_goals
    refine steady_peek.bind fun b => ?_
    cases b with
    | none => exact steady_pure ()
    | some b => exact steady_skipExponent.ite (steady_pure ())

theorem steady_skipNumber : Steady skipNumber := by
  have rest := steady_skipFractionAndExponent
  refine steady_peek.bind fun sign => Continues.ite (steady_skip.bind fun _ => ?_) ?_
  -- With a sign or without, digits follow.
  all_goals
    refine steady_next.bind fun b => ?_
    cases b with
    | none => exact ((fails_failHere _).before _).continues
    | some b =>
      refine Continues.ite ?_ (Continues.ite ?_ ((fails_failHere _).before _).continues)
      · exact steady_peek.bind fun c => ((fails_failAhead _).before _).continues.ite rest
      · exact (steady_takeWhile isDigit).bind fun _ => rest

theorem steady_colon : Steady colon := by
  refine steady_skipBlanks.bind fun b => ?_
  cases b with
  | none => exact (fails_failAhead _).continues
  | some b => exact steady_skip.ite (fails_failAhead _).continues

theorem steady_skipName : Steady skipName := by
  have rest : Steady (do
      let _ ← stringBytes false
      colon) := (closes_stringBytes false).steady.bind fun _ => steady_colon
  refine steady_skipBlanks.bind fun b => ?_
  cases b with
  | none => exact ((fails_failAhead _).before _).continues
  | some b => exact (steady_skip.bind fun _ => rest).ite ((fails_failAhead _).before _).continues

/-- Values of no interest, with more text and more fuel. -/
theorem continues_skip {n n' : Nat} (h : n ≤ n') :
    Continues (skipValue n) (skipValue n') ∧
      ∀ object first, Continues (skipRest n object first) (skipRest n' object first) := by
  -- Each of the two readers calls the other with less fuel, so one induction serves both.
  induction n generalizing n' with
  | zero =>
    refine ⟨?_, fun object first => ?_⟩
    · rw [skipValue]
      exact (fails_failAhead _).continues
    · rw [skipRest]
      exact (fails_failAhead _).continues
  | succ n ih =>
    obtain ⟨m, rfl⟩ : ∃ m, n' = m + 1 := ⟨n' - 1, by omega⟩
    obtain ⟨value, rest⟩ := ih (Nat.le_of_succ_le_succ h)
    refine ⟨?_, fun object first => ?_⟩
    · rw [skipValue, skipValue]
      refine steady_skipBlanks.bind fun b => ?_
      cases b with
      | none => exact (fails_failAhead _).continues
      | some b =>
        dsimp only
        split
        · exact steady_skip.bind fun _ => steady_word _
        · refine steady_skipNumber.ite (Continues.ite ?_ (Continues.ite ?_ (Continues.ite ?_ ?_)))
          · exact steady_skip.bind fun _ => (closes_stringBytes false).steady.bind fun _ => steady_pure ()
          · exact steady_skip.bind fun _ => rest false true
          · exact steady_skip.bind fun _ => rest true true
          · exact (fails_failAhead _).continues
    · rw [skipRest, skipRest]
      refine steady_skipBlanks.bind fun b => ?_
      cases b with
      | none => exact (fails_failAhead _).continues
      | some b =>
        have item : Continues
            (do skipValue n; skipRest n object false) (do skipValue m; skipRest m object false) :=
          value.bind fun _ => rest object false
        have member : Continues
            (do if object then skipName
                skipValue n; skipRest n object false)
            (do if object then skipName
                skipValue m; skipRest m object false) :=
          Continues.ite (steady_skipName.bind fun _ => item) item
        refine steady_skip.ite (Continues.ite (Continues.ite ?_ ?_) member)
        · exact steady_skip.bind fun _ => member
        · exact ((fails_failAhead _).before _).continues

/-- A reader with fuel for the text that is left. -/
theorem steady_fuelled {R : Nat → Read α} (hR : ∀ n n', n ≤ n' → Continues (R n) (R n'))
    {fuel : Nat → Nat} (hfuel : ∀ n n', n ≤ n' → fuel n ≤ fuel n') :
    Steady (do R (fuel (← get).rest.length)) := by
  constructor
  · intro d a s' h
    exact (hR _ _ (Nat.le_refl _)).nil d a s' h
  · intro bs d a l d' h hl rest
    refine (hR _ _ (hfuel _ _ ?_)).more bs d a l d' h hl rest
    rw [List.length_append]
    exact Nat.le_add_right _ _

theorem steady_skipAny : Steady skipAny :=
  steady_fuelled (fun _ _ h => (continues_skip h).1) fun n n' h => (by omega : 2 * n + 2 ≤ 2 * n' + 2)

/-! ## Lists and objects -/

theorem steady_separated (object first : Bool) : Steady (separated object first) := by
  refine steady_skipBlanks.bind fun b => ?_
  cases b with
  | none => exact (fails_failAhead _).continues
  | some b =>
    refine (steady_pure _).ite ((steady_pure _).ite (Continues.ite ?_ (fails_failAhead _).continues))
    refine steady_skip.bind fun _ => steady_skipBlanks.bind fun c => ?_
    cases c with
    | none => exact (fails_failAhead _).continues
    | some c => exact (fails_failAhead _).continues.ite (steady_pure _)

theorem steady_nameAt (b : UInt8) : Steady (nameAt b) :=
  (steady_skip.bind fun _ => steady_stringText).ite (fails_failAhead _).continues

theorem closes_endObject : Closes endObject := by
  refine closes_bracket (fails_failAhead _) fun b => ?_
  dsimp only
  split
  · exact .inl rfl
  · split
    · exact .inr (fails_failAhead _)
    · exact .inr (fails_failAhead _)

theorem closes_endList : Closes endList := by
  refine closes_bracket (fails_failAhead _) fun b => ?_
  dsimp only
  split
  · exact .inl rfl
  · split
    · refine .inr (.bind fun _ => .bind fun c => ?_)
      split
      · exact fails_failAhead _
      · exact fails_failAhead _
    · exact .inr (fails_failAhead _)

theorem steady_firstByte : Steady firstByte := by
  refine steady_skipBlanks.bind fun b => ?_
  cases b with
  | none => exact (fails_failAhead _).continues
  | some b => exact steady_pure b

theorem fails_wrongType (expected : String) (b : UInt8) : Fails (wrongType expected b : Read α) := by
  intro s a s' h
  exact Fails.bind (fun _ => fails_failUnplaced _) s a s' (placed_ok.mp h)

theorem steady_stringAs (expected : String) (convert : String → Except Mismatch α) :
    Steady (stringAs expected convert) := by
  refine steady_firstByte.bind fun b => Continues.ite ?_ (fails_wrongType _ _).continues
  refine Continues.placed (steady_skip.bind fun _ => steady_stringText.bind fun text => ?_)
  cases convert text with
  | ok a => exact steady_pure a
  | error reason => exact (fails_failUnplaced _).continues

theorem steady_unit : Steady unit :=
  steady_firstByte.bind fun _ =>
    (steady_skip.bind fun _ => steady_word _).ite (fails_wrongType _ _).continues

theorem continues_items {item : Read α} (hitem : Steady item) {n n' : Nat} (h : n ≤ n') (first : Bool) :
    Continues (items item n first) (items item n' first) := by
  induction n generalizing n' first with
  | zero => exact (fails_failAhead _).continues
  | succ n ih =>
    obtain ⟨m, rfl⟩ : ∃ m, n' = m + 1 := ⟨n' - 1, by omega⟩
    refine (steady_separated false first).bind fun b => ?_
    cases b with
    | none => exact steady_pure _
    | some b =>
      refine hitem.bind fun a => (ih (Nat.le_of_succ_le_succ h) false).bind fun as => steady_pure _

theorem closes_list {item : Read α} (hitem : Steady item) : Closes (list item) := by
  refine .bind steady_firstByte fun b => Closes.ite (.placed (.closedBy ?_ closes_endList)) ?_
  · refine Continues.nested (steady_skip.bind fun _ => ?_)
    exact steady_fuelled (fun _ _ h => continues_items hitem h true) fun _ _ h => Nat.succ_le_succ h
  · exact (fails_wrongType _ _).closes

theorem continues_members {step : α → String → Read α} (hstep : ∀ a name, Steady (step a name))
    {n n' : Nat} (h : n ≤ n') (first : Bool) (a : α) :
    Continues (members step n first a) (members step n' first a) := by
  induction n generalizing n' first a with
  | zero => exact (fails_failAhead _).continues
  | succ n ih =>
    obtain ⟨m, rfl⟩ : ∃ m, n' = m + 1 := ⟨n' - 1, by omega⟩
    refine (steady_separated true first).bind fun b => ?_
    cases b with
    | none => exact steady_pure _
    | some b =>
      refine (steady_nameAt b).bind fun name => (hstep a name).bind fun a => ?_
      exact ih (Nat.le_of_succ_le_succ h) false a

theorem steady_item? {item : Read α} (hitem : Steady item) (first : Bool) : Steady (item? item first) := by
  refine (steady_separated false first).bind fun b => ?_
  cases b with
  | none => exact steady_pure _
  | some b => exact hitem.bind fun a => steady_pure _

theorem closes_record (expected : String) {ofObject ofList : Read α} (hobject : Steady ofObject)
    (hlist : Steady ofList) : Closes (record expected ofObject ofList) := by
  refine .bind steady_firstByte fun b => Closes.ite ?_ (Closes.ite ?_ (fails_wrongType _ _).closes)
  · exact .placed (.closedBy (Continues.nested (steady_skip.bind fun _ => hlist)) closes_endList)
  · exact .placed (.closedBy (Continues.nested (steady_skip.bind fun _ => hobject)) closes_endObject)

theorem steady_field (name : String) {value : Read α} (hvalue : Steady value) (given : Option α) :
    Steady (field name value given) := by
  cases given with
  | none => exact steady_colon.bind fun _ => hvalue.bind fun a => steady_pure _
  | some a => exact (fails_failUnplaced _).continues

theorem steady_required (name : String) (given : Option α) : Steady (required name given) := by
  cases given with
  | none => exact (fails_failUnplaced _).continues
  | some a => exact steady_pure a

/-! ## Variants -/

theorem steady_carriedName (names : List String) : Steady (carriedName names) := by
  refine steady_skipBlanks.bind fun b => ?_
  cases b with
  | none => exact (fails_failAhead _).continues
  | some b =>
    refine (steady_stringAs _ _).ite ?_
    exact (fails_failAhead _).continues.ite (fails_failAhead _).continues

theorem steady_variant (names : List String) {alone carrying : String → Read α}
    (halone : ∀ name, Steady (alone name)) (hcarrying : ∀ name, Steady (carrying name)) :
    Steady (variant names alone carrying) := by
  refine steady_firstByte.bind fun b => Continues.ite ?_ (Continues.ite ?_ (fails_failAhead _).continues)
  · refine Continues.bind (Continues.nested ?_) fun a => steady_skipBlanks.bind fun c => ?_
    · exact steady_skip.bind fun _ => (steady_carriedName names).bind fun name =>
        steady_colon.bind fun _ => hcarrying name
    · cases c with
      | none => exact (fails_failHere _).continues
      | some c => exact (steady_skip.bind fun _ => steady_pure a).ite (fails_failHere _).continues
  · exact (steady_stringAs _ _).bind fun name => halone name

/-! ## Whole texts -/

theorem readAll_of_ok {R : Read α} {text rest : Bytes} {a : α} {d : Nat}
    (h : reading R ⟨text, nestingLimit⟩ = (.ok a, ⟨rest, d⟩)) (hrest : rest.dropWhile isBlank = []) :
    readAll R text = .ok a := by
  rw [readAll]
  change (reading (R >>= _) _).1.mapError _ = _
  rw [reading_bind_of_ok h, reading_bind, reading_skipBlanks]
  simp only [hrest]
  rfl

theorem readAll_of_error {R : Read α} {text : Bytes} {fault : Fault} {s : Input}
    (h : reading R ⟨text, nestingLimit⟩ = (.error fault, s)) :
    readAll R text = .error (fault.inText text) := by
  rw [readAll]
  change (reading (R >>= _) _).1.mapError _ = _
  rw [reading_bind, h]
  rfl

/-- No proper beginning of a text is read whose last byte the reader needs. -/
theorem readAll_torn {R : Read α} (hR : Closes R) {part rest : Bytes}
    (hwhole : ∀ a s, reading R ⟨part ++ rest, nestingLimit⟩ = (.ok a, s) → s.rest = [])
    (hrest : rest ≠ []) (a : α) : readAll R part ≠ .ok a := by
  intro h
  rw [readAll] at h
  generalize hout : StateT.run _ _ = out at h
  obtain ⟨result, s⟩ := out
  cases result with
  | error fault => cases h
  | ok b =>
    obtain ⟨b', ⟨l, d⟩, hpart, _⟩ := bind_ok hout
    have hnil := hwhole _ _ ((hR _ _ _ _ _ hpart).2 rest)
    exact hrest (List.append_eq_nil_iff.mp hnil).2

end Bringup.Json

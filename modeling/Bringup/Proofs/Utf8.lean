import Mathlib.Data.FinEnum
import Bringup.Text.Utf8

/-!
# Reading UTF-8 back

The bytes of a text spell that text and no other bytes do: `decode?_eq_some`. The arithmetic is that of one
character, in each of its four lengths.
-/

namespace Bringup.Text.Utf8

set_option autoImplicit false

/-! ## Lead bytes and their ranges -/

theorem bits_eq (b : UInt8) : bits b = b.toNat % 64 := by
  rw [bits, UInt8.toNat_and]
  exact Nat.and_two_pow_sub_one_eq_mod _ 6

/-- The shape of a lead byte by its number. -/
theorem shape?_eq : ∀ lead : UInt8, shape? lead =
    if lead.toNat < 0x80 then some (lead.toNat, [])
    else if lead.toNat < 0xC2 then none
    else if lead.toNat < 0xE0 then some (lead.toNat - 0xC0, [(0x80, 0xBF)])
    else if lead.toNat < 0xF0 then
      some (lead.toNat - 0xE0,
        [(if lead.toNat = 0xE0 then 0xA0 else 0x80, if lead.toNat = 0xED then 0x9F else 0xBF), (0x80, 0xBF)])
    else if lead.toNat < 0xF5 then
      some (lead.toNat - 0xF0,
        [(if lead.toNat = 0xF0 then 0x90 else 0x80, if lead.toNat = 0xF4 then 0x8F else 0xBF),
          (0x80, 0xBF), (0x80, 0xBF)])
    else none := by
  decide +kernel

theorem shape?_one (lead : UInt8) (h : lead.toNat < 0x80) : shape? lead = some (lead.toNat, []) := by
  rw [shape?_eq, if_pos h]

theorem shape?_two (lead : UInt8) (hlow : 0xC2 ≤ lead.toNat) (hhigh : lead.toNat < 0xE0) :
    shape? lead = some (lead.toNat - 0xC0, [(0x80, 0xBF)]) := by
  rw [shape?_eq, if_neg (by omega), if_neg (by omega), if_pos hhigh]

theorem shape?_three (lead : UInt8) (hlow : 0xE0 ≤ lead.toNat) (hhigh : lead.toNat < 0xF0) :
    shape? lead = some (lead.toNat - 0xE0,
      [(if lead.toNat = 0xE0 then 0xA0 else 0x80, if lead.toNat = 0xED then 0x9F else 0xBF),
        (0x80, 0xBF)]) := by
  rw [shape?_eq, if_neg (by omega), if_neg (by omega), if_neg (by omega), if_pos hhigh]

theorem shape?_four (lead : UInt8) (hlow : 0xF0 ≤ lead.toNat) (hhigh : lead.toNat < 0xF5) :
    shape? lead = some (lead.toNat - 0xF0,
      [(if lead.toNat = 0xF0 then 0x90 else 0x80, if lead.toNat = 0xF4 then 0x8F else 0xBF),
        (0x80, 0xBF), (0x80, 0xBF)]) := by
  rw [shape?_eq, if_neg (by omega), if_neg (by omega), if_neg (by omega), if_neg (by omega), if_pos hhigh]

theorem shape?_none (lead : UInt8) (hlow : 0x80 ≤ lead.toNat) (hgap : lead.toNat < 0xC2 ∨ 0xF5 ≤ lead.toNat) :
    shape? lead = none := by
  rw [shape?_eq, if_neg (by omega)]
  rcases hgap with hgap | hgap
  · rw [if_pos hgap]
  · rw [if_neg (by omega), if_neg (by omega), if_neg (by omega), if_neg (by omega)]

theorem follow_cons {low high : UInt8} {ranges : List (UInt8 × UInt8)} {value : Nat} {b : UInt8} {bs : Bytes}
    (hlow : low.toNat ≤ b.toNat) (hhigh : b.toNat ≤ high.toNat) :
    follow ((low, high) :: ranges) value (b :: bs) = follow ranges (value * 64 + b.toNat % 64) bs := by
  have hrange : (decide (low ≤ b) && decide (b ≤ high)) = true := by
    simp [UInt8.le_iff_toNat_le, hlow, hhigh]
  rw [follow, if_pos hrange, bits_eq]

theorem follow_tail {ranges : List (UInt8 × UInt8)} {value : Nat} {b : UInt8} {bs : Bytes}
    (hlow : 0x80 ≤ b.toNat) (hhigh : b.toNat ≤ 0xBF) :
    follow ((0x80, 0xBF) :: ranges) value (b :: bs) = follow ranges (value * 64 + b.toNat % 64) bs :=
  follow_cons hlow hhigh

theorem toNat_ite {p : Prop} [Decidable p] (a b : UInt8) :
    (if p then a else b).toNat = if p then a.toNat else b.toNat := by
  split <;> rfl

theorem follow_some {low high : UInt8} {ranges : List (UInt8 × UInt8)} {value n : Nat} {bs rest : Bytes}
    (h : follow ((low, high) :: ranges) value bs = (some n, rest)) :
    ∃ b bs', bs = b :: bs' ∧ low.toNat ≤ b.toNat ∧ b.toNat ≤ high.toNat ∧
      follow ranges (value * 64 + b.toNat % 64) bs' = (some n, rest) := by
  cases bs with
  | nil => simp [follow] at h
  | cons b bs =>
    rw [follow] at h
    split at h
    · next hrange =>
      simp only [Bool.and_eq_true, decide_eq_true_eq, UInt8.le_iff_toNat_le] at hrange
      exact ⟨b, bs, rfl, hrange.1, hrange.2, by rw [← bits_eq]; exact h⟩
    · cases h

/-! ## One character -/

/-- The bytes of a character and its code point, by the number of bytes. -/
inductive Spells : Bytes → Nat → Prop
  | one {b : UInt8} (hb : b.toNat < 0x80) : Spells [b] b.toNat
  | two {lead b : UInt8} (hlead : 0xC2 ≤ lead.toNat) (hlead' : lead.toNat < 0xE0) (hb : 0x80 ≤ b.toNat)
      (hb' : b.toNat ≤ 0xBF) : Spells [lead, b] ((lead.toNat - 0xC0) * 64 + b.toNat % 64)
  | three {lead b c : UInt8} (hlead : 0xE0 ≤ lead.toNat) (hlead' : lead.toNat < 0xF0)
      (hb : (if lead.toNat = 0xE0 then 0xA0 else 0x80) ≤ b.toNat)
      (hb' : b.toNat ≤ (if lead.toNat = 0xED then 0x9F else 0xBF)) (hc : 0x80 ≤ c.toNat)
      (hc' : c.toNat ≤ 0xBF) :
      Spells [lead, b, c] (((lead.toNat - 0xE0) * 64 + b.toNat % 64) * 64 + c.toNat % 64)
  | four {lead b c d : UInt8} (hlead : 0xF0 ≤ lead.toNat) (hlead' : lead.toNat < 0xF5)
      (hb : (if lead.toNat = 0xF0 then 0x90 else 0x80) ≤ b.toNat)
      (hb' : b.toNat ≤ (if lead.toNat = 0xF4 then 0x8F else 0xBF)) (hc : 0x80 ≤ c.toNat)
      (hc' : c.toNat ≤ 0xBF) (hd : 0x80 ≤ d.toNat) (hd' : d.toNat ≤ 0xBF) :
      Spells [lead, b, c, d]
        ((((lead.toNat - 0xF0) * 64 + b.toNat % 64) * 64 + c.toNat % 64) * 64 + d.toNat % 64)

theorem toNat_ofNat_byte {n : Nat} (h : n < 256) : (UInt8.ofNat n).toNat = n :=
  UInt8.toNat_ofNat_of_lt' h

theorem byte_eq {n : Nat} {b : UInt8} (h : n = b.toNat) : UInt8.ofNat n = b := by
  rw [h, UInt8.ofNat_toNat]

/-- The bytes that a character is written as spell it. -/
theorem spells_encode (c : Char) : Spells (String.utf8EncodeChar c) c.toNat := by
  have hvalid : c.toNat < 0xD800 ∨ 0xDFFF < c.toNat ∧ c.toNat < 0x110000 := c.valid
  have hval : c.val.toNat = c.toNat := rfl
  rw [String.utf8EncodeChar, hval]
  generalize c.toNat = v at *
  have tail : ∀ n, (UInt8.ofNat (n % 64 + 128)).toNat = n % 64 + 128 := fun n =>
    toNat_ofNat_byte (by omega)
  by_cases h₁ : v ≤ 127
  · rw [if_pos h₁]
    have hv : (UInt8.ofNat v).toNat = v := toNat_ofNat_byte (by omega)
    have h := @Spells.one (UInt8.ofNat v) (by omega)
    rwa [hv] at h
  rw [if_neg h₁]
  by_cases h₂ : v ≤ 2047
  · rw [if_pos h₂]
    have hlead : (UInt8.ofNat (v / 64 % 32 + 192)).toNat = v / 64 % 32 + 192 := toNat_ofNat_byte (by omega)
    have h := @Spells.two (UInt8.ofNat (v / 64 % 32 + 192)) (UInt8.ofNat (v % 64 + 128)) (by omega) (by omega)
      (by rw [tail]; omega) (by rw [tail]; omega)
    rw [hlead, tail] at h
    have hv : (v / 64 % 32 + 192 - 0xC0) * 64 + (v % 64 + 128) % 64 = v := by omega
    rwa [hv] at h
  rw [if_neg h₂]
  by_cases h₃ : v ≤ 65535
  · rw [if_pos h₃]
    have hlead : (UInt8.ofNat (v / 4096 % 16 + 224)).toNat = v / 4096 % 16 + 224 :=
      toNat_ofNat_byte (by omega)
    have h := @Spells.three (UInt8.ofNat (v / 4096 % 16 + 224)) (UInt8.ofNat (v / 64 % 64 + 128))
      (UInt8.ofNat (v % 64 + 128)) (by omega) (by omega) (by rw [tail]; split <;> omega)
      (by rw [tail]; split <;> omega) (by rw [tail]; omega) (by rw [tail]; omega)
    rw [hlead, tail, tail] at h
    have hv : ((v / 4096 % 16 + 224 - 0xE0) * 64 + (v / 64 % 64 + 128) % 64) * 64
        + (v % 64 + 128) % 64 = v := by omega
    rwa [hv] at h
  · rw [if_neg h₃]
    have hlead : (UInt8.ofNat (v / 262144 % 8 + 240)).toNat = v / 262144 % 8 + 240 :=
      toNat_ofNat_byte (by omega)
    have h := @Spells.four (UInt8.ofNat (v / 262144 % 8 + 240)) (UInt8.ofNat (v / 4096 % 64 + 128))
      (UInt8.ofNat (v / 64 % 64 + 128)) (UInt8.ofNat (v % 64 + 128)) (by omega) (by omega)
      (by rw [tail]; split <;> omega) (by rw [tail]; split <;> omega) (by rw [tail]; omega)
      (by rw [tail]; omega) (by rw [tail]; omega) (by rw [tail]; omega)
    rw [hlead, tail, tail, tail] at h
    have hv : (((v / 262144 % 8 + 240 - 0xF0) * 64 + (v / 4096 % 64 + 128) % 64) * 64
        + (v / 64 % 64 + 128) % 64) * 64 + (v % 64 + 128) % 64 = v := by omega
    rwa [hv] at h

/-- Bytes that spell a character are the bytes that it is written as. -/
theorem Spells.encode {bs : Bytes} {n : Nat} {c : Char} (h : Spells bs n) (hn : c.val.toNat = n) :
    String.utf8EncodeChar c = bs := by
  rw [String.utf8EncodeChar]
  generalize c.val.toNat = v at *
  cases h with
  | one hb => rw [if_pos (by omega), byte_eq hn]
  | @two lead b hlead hlead' hb hb' =>
    have e₁ : UInt8.ofNat (v / 64 % 32 + 192) = lead := byte_eq (by omega)
    have e₂ : UInt8.ofNat (v % 64 + 128) = b := byte_eq (by omega)
    rw [if_neg (by omega), if_pos (by omega), e₁, e₂]
  | @three lead b d hlead hlead' hb hb' hd hd' =>
    have hb : 0x80 ≤ b.toNat ∧ (lead.toNat = 0xE0 → 0xA0 ≤ b.toNat) := by split at hb <;> omega
    have hb' : b.toNat ≤ 0xBF := by split at hb' <;> omega
    have e₁ : UInt8.ofNat (v / 4096 % 16 + 224) = lead := byte_eq (by omega)
    have e₂ : UInt8.ofNat (v / 64 % 64 + 128) = b := byte_eq (by omega)
    have e₃ : UInt8.ofNat (v % 64 + 128) = d := byte_eq (by omega)
    rw [if_neg (by omega), if_neg (by omega), if_pos (by omega), e₁, e₂, e₃]
  | @four lead b d e hlead hlead' hb hb' hd hd' he he' =>
    have hb : 0x80 ≤ b.toNat ∧ (lead.toNat = 0xF0 → 0x90 ≤ b.toNat) := by split at hb <;> omega
    have hb' : b.toNat ≤ 0xBF := by split at hb' <;> omega
    have e₁ : UInt8.ofNat (v / 262144 % 8 + 240) = lead := byte_eq (by omega)
    have e₂ : UInt8.ofNat (v / 4096 % 64 + 128) = b := byte_eq (by omega)
    have e₃ : UInt8.ofNat (v / 64 % 64 + 128) = d := byte_eq (by omega)
    have e₄ : UInt8.ofNat (v % 64 + 128) = e := byte_eq (by omega)
    rw [if_neg (by omega), if_neg (by omega), if_neg (by omega), e₁, e₂, e₃, e₄]

theorem Spells.valid {bs : Bytes} {n : Nat} (h : Spells bs n) : n.isValidChar := by
  cases h with
  | one hb => exact .inl (by omega)
  | two hlead hlead' hb hb' => exact .inl (by omega)
  | @three lead b d hlead hlead' hb hb' hd hd' =>
    have hmost : lead.toNat = 0xED → b.toNat ≤ 0x9F := by split at hb' <;> omega
    have hrange : 0x80 ≤ b.toNat ∧ b.toNat ≤ 0xBF := by
      split at hb <;> split at hb' <;> omega
    rw [Nat.isValidChar]
    omega
  | @four lead b d e hlead hlead' hb hb' hd hd' he he' =>
    have hmost : lead.toNat = 0xF4 → b.toNat ≤ 0x8F := by split at hb' <;> omega
    have hleast : lead.toNat = 0xF0 → 0x90 ≤ b.toNat := by split at hb <;> omega
    have hrange : 0x80 ≤ b.toNat ∧ b.toNat ≤ 0xBF := by
      split at hb <;> split at hb' <;> omega
    rw [Nat.isValidChar]
    omega

/-- Bytes that spell a character are read as that character. -/
theorem Spells.step {lead : UInt8} {tail : Bytes} {n : Nat} (h : Spells (lead :: tail) n) (bs : Bytes) :
    step lead (tail ++ bs) = (some (Char.ofNat n), bs) := by
  rw [Utf8.step]
  cases h with
  | one hb => simp [shape?_one lead hb, follow]
  | two hlead hlead' hb hb' =>
    simp only [shape?_two lead hlead hlead', List.cons_append, follow_tail hb hb']
    rfl
  | three hlead hlead' hb hb' hc hc' =>
    rw [shape?_three lead hlead hlead', List.cons_append, List.cons_append]
    simp only [follow_cons ((toNat_ite 0xA0 0x80).trans_le hb) (hb'.trans_eq (toNat_ite 0x9F 0xBF).symm),
      follow_tail hc hc']
    rfl
  | four hlead hlead' hb hb' hc hc' hd hd' =>
    rw [shape?_four lead hlead hlead', List.cons_append, List.cons_append, List.cons_append]
    simp only [follow_cons ((toNat_ite 0x90 0x80).trans_le hb) (hb'.trans_eq (toNat_ite 0x8F 0xBF).symm),
      follow_tail hc hc', follow_tail hd hd']
    rfl

/-- What is read as a character spells it. -/
theorem spells_of_step {lead : UInt8} {bs rest : Bytes} {c : Char} (h : step lead bs = (some c, rest)) :
    ∃ n tail, Spells (lead :: tail) n ∧ c = Char.ofNat n ∧ bs = tail ++ rest := by
  have hfinish : ∀ {ranges value}, shape? lead = some (value, ranges) →
      ∃ n, follow ranges value bs = (some n, rest) ∧ c = Char.ofNat n := by
    intro ranges value hshape
    simp only [step, hshape, Prod.mk.injEq, Option.map_eq_some_iff] at h
    obtain ⟨⟨n, hn, rfl⟩, hrest⟩ := h
    exact ⟨n, Prod.ext hn hrest, rfl⟩
  -- The lead byte tells how many bytes follow it.
  by_cases h₁ : lead.toNat < 0x80
  · obtain ⟨n, hfollow, hc⟩ := hfinish (shape?_one lead h₁)
    cases hfollow
    exact ⟨_, [], .one h₁, hc, rfl⟩
  by_cases h₂ : lead.toNat < 0xC2 ∨ 0xF5 ≤ lead.toNat
  · rw [step, shape?_none lead (by omega) h₂] at h
    cases h
  by_cases h₃ : lead.toNat < 0xE0
  · obtain ⟨n, hfollow, hc⟩ := hfinish (shape?_two lead (by omega) h₃)
    obtain ⟨b, bs', rfl, hb, hb', hfollow⟩ := follow_some hfollow
    cases hfollow
    exact ⟨_, [b], .two (by omega) h₃ hb hb', hc, rfl⟩
  by_cases h₄ : lead.toNat < 0xF0
  · obtain ⟨n, hfollow, hc⟩ := hfinish (shape?_three lead (by omega) h₄)
    obtain ⟨b, bs', rfl, hb, hb', hfollow⟩ := follow_some hfollow
    obtain ⟨d, bs', rfl, hd, hd', hfollow⟩ := follow_some hfollow
    rw [toNat_ite] at hb hb'
    cases hfollow
    exact ⟨_, [b, d], .three (by omega) h₄ hb hb' hd hd', hc, rfl⟩
  · obtain ⟨n, hfollow, hc⟩ := hfinish (shape?_four lead (by omega) (by omega))
    obtain ⟨b, bs', rfl, hb, hb', hfollow⟩ := follow_some hfollow
    obtain ⟨d, bs', rfl, hd, hd', hfollow⟩ := follow_some hfollow
    obtain ⟨e, bs', rfl, he, he', hfollow⟩ := follow_some hfollow
    rw [toNat_ite] at hb hb'
    cases hfollow
    exact ⟨_, [b, d, e], .four (by omega) (by omega) hb hb' hd hd' he he', hc, rfl⟩

theorem encodeChar_ascii {c : Char} (h : c.toNat < 0x80) :
    String.utf8EncodeChar c = [UInt8.ofNat c.toNat] := by
  have hle : c.val.toNat ≤ 127 := Nat.le_of_lt_succ h
  rw [String.utf8EncodeChar, if_pos hle]
  rfl

/-- A character beyond ASCII has no byte of ASCII. -/
theorem Spells.not_ascii {bs : Bytes} {n : Nat} (h : Spells bs n) (hn : 0x80 ≤ n) {b : UInt8}
    (hb : b ∈ bs) : 0x80 ≤ b.toNat := by
  cases h with
  | one hlead => omega
  | two hlead _ hb₁ =>
    simp only [List.mem_cons, List.not_mem_nil, or_false] at hb
    rcases hb with rfl | rfl <;> omega
  | three hlead _ hb₁ _ hb₂ =>
    simp only [List.mem_cons, List.not_mem_nil, or_false] at hb
    rcases hb with rfl | rfl | rfl
    · omega
    · split at hb₁ <;> omega
    · omega
  | four hlead _ hb₁ _ hb₂ _ hb₃ =>
    simp only [List.mem_cons, List.not_mem_nil, or_false] at hb
    rcases hb with rfl | rfl | rfl | rfl
    · omega
    · split at hb₁ <;> omega
    · omega
    · omega

/-! ## Whole texts -/

/-- The bytes of some characters. -/
def spelling (cs : List Char) : Bytes := cs.flatMap String.utf8EncodeChar

theorem spelling_append (cs ds : List Char) : spelling (cs ++ ds) = spelling cs ++ spelling ds :=
  List.flatMap_append ..

theorem spelling_cons (c : Char) (cs : List Char) :
    spelling (c :: cs) = String.utf8EncodeChar c ++ spelling cs :=
  List.flatMap_cons ..

theorem encode_ofList (cs : List Char) : encode (String.ofList cs) = spelling cs := by
  rw [encode, String.toList_ofList, spelling]

theorem scan_encodeChar (c : Char) (bs : Bytes) :
    scan (String.utf8EncodeChar c ++ bs) = some c :: scan bs := by
  have h := spells_encode c
  generalize String.utf8EncodeChar c = l at h
  cases l with
  | nil => cases h
  | cons lead tail =>
    rw [List.cons_append, scan, h.step, Char.ofNat_toNat]

theorem scan_spelling (cs : List Char) : scan (spelling cs) = cs.map some := by
  induction cs with
  | nil => simp [spelling, scan]
  | cons c cs ih => rw [spelling_cons, scan_encodeChar, ih, List.map_cons]

theorem decodeLossy_encode (s : String) : decodeLossy (encode s) = s := by
  rw [decodeLossy, ← String.ofList_toList (s := s), encode_ofList, scan_spelling, List.map_map]
  simp [Function.comp_def]

theorem mapM_id_eq_some {α : Type} {l : List (Option α)} {as : List α} :
    l.mapM id = some as ↔ l = as.map some := by
  induction l generalizing as with
  | nil => cases as <;> simp
  | cons o l ih =>
    cases o with
    | none => cases as <;> simp
    | some a => cases as <;> simp [Option.bind_eq_some_iff, ih, and_comm]

/-- Bytes without a gap are those of the characters that they spell. -/
theorem spelling_of_scan {bs : Bytes} {cs : List Char} (h : scan bs = cs.map some) :
    bs = spelling cs := by
  induction bs using scan.induct generalizing cs with
  | case1 =>
    rw [scan, eq_comm, List.map_eq_nil_iff] at h
    rw [h]
    rfl
  | case2 lead bs ih =>
    rw [scan, eq_comm, List.map_eq_cons_iff] at h
    obtain ⟨c, cs, rfl, hc, hcs⟩ := h
    obtain ⟨n, tail, hspells, rfl, htail⟩ := spells_of_step (Prod.ext hc.symm rfl)
    have hn : (Char.ofNat n).toNat = n := by
      rw [Char.ofNat, dif_pos hspells.valid]
      rfl
    rw [spelling_cons, hspells.encode hn, ← ih hcs.symm, List.cons_append, ← htail]

/-- The bytes of a text spell that text, and no other bytes do. -/
theorem decode?_eq_some {bs : Bytes} {s : String} : decode? bs = some s ↔ bs = encode s := by
  rw [decode?, Option.map_eq_some_iff]
  constructor
  · rintro ⟨cs, hcs, rfl⟩
    rw [spelling_of_scan (mapM_id_eq_some.mp hcs), encode_ofList]
  · rintro rfl
    exact ⟨s.toList, mapM_id_eq_some.mpr (scan_spelling _), String.ofList_toList⟩

end Bringup.Text.Utf8

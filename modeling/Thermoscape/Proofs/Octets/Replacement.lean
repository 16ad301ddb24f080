import Thermoscape.Proofs.Octets.Reading
import Thermoscape.Proofs.Octets.Utf8

/-!
# Thermoscape.Proofs.Octets.Replacement

**Bad bytes damage only themselves.** What bytes stand for is given here by a rule
that speaks of characters alone: the bytes of a character stand for it, and each
maximal ill-formed part is replaced, that is a byte that begins no character, or a
beginning of a character that the byte behind it does not continue (`Lossy`). The
rule looks ahead by one byte at most, and a byte that begins a character continues
none, so that text on either side of the bytes is read as if it stood alone
(`Lossy.text_append`, `Lossy.append_text`).

The machine follows the rule, and gives for all bytes the only characters that the
rule allows (`lossy_iff`). Inside a character it has read some beginning of it
(`Opened`), and the range that it keeps holds exactly the bytes that continue that
beginning (`Opened.continues_iff`). A byte in the range is on the way to a
character because the bits so far can be completed to one. A byte outside the range
is not: the machine would give a replacement and something more, where it gives a
single character for the bytes of one.
-/

namespace Thermoscape.Utf8

/-! ### The rule -/

/-- Some character begins with the bytes `p` and has `b` directly behind them. -/
def Continues (p : Octets) (b : UInt8) : Prop :=
  ∃ (c : Char) (rest : Octets), String.utf8EncodeChar c = p ++ b :: rest

/-- The characters that bytes stand for when every maximal ill-formed part of
them is replaced. -/
inductive Lossy : Octets → List Char → Prop
  | nil : Lossy [] []
  /-- The bytes of a character stand for it. -/
  | char (c : Char) {bs : Octets} {cs : List Char} (h : Lossy bs cs) :
      Lossy (String.utf8EncodeChar c ++ bs) (c :: cs)
  /-- A byte that begins no character is replaced. -/
  | stray {b : UInt8} {bs : Octets} {cs : List Char} (hb : ¬ Continues [] b) (h : Lossy bs cs) :
      Lossy (b :: bs) (replacement :: cs)
  /-- So is, as a whole, a beginning of a character that the next byte does not continue. -/
  | part {p bs : Octets} {cs : List Char} (hne : p ≠ []) (hp : ∃ b, Continues p b)
      (hstop : ∀ b ∈ bs.head?, ¬ Continues p b) (h : Lossy bs cs) :
      Lossy (p ++ bs) (replacement :: cs)

/-! ### Text around the bytes -/

theorem Lossy.text_append (cs : List Char) {bs : Octets} {ds : List Char} (h : Lossy bs ds) :
    Lossy (encodeChars cs ++ bs) (cs ++ ds) := by
  induction cs with
  | nil => exact h
  | cons c cs ih =>
      rw [encodeChars_cons, List.append_assoc]
      exact .char c ih

/-- A byte inside a character is not the first of any. -/
theorem Continues.not_first {p : Octets} {b : UInt8} (h : Continues p b) (hne : p ≠ []) :
    ¬ b.IsUTF8FirstByte := by
  obtain ⟨c, rest, heq⟩ := h
  have hlt : p.length < (String.utf8EncodeChar c).length := by simp [heq]
  have hb : (String.utf8EncodeChar c)[p.length] = b := by simp [heq]
  rw [← hb, UInt8.isUTF8FirstByte_getElem_utf8EncodeChar]
  exact mt List.length_eq_zero_iff.mp hne

theorem isUTF8FirstByte_of_head {cs : List Char} {b : UInt8} (h : b ∈ (encodeChars cs).head?) :
    b.IsUTF8FirstByte := by
  cases cs with
  | nil => simp at h
  | cons c cs =>
      have hpos : 0 < (String.utf8EncodeChar c).length := by simp [c.utf8Size_pos]
      have hb : (String.utf8EncodeChar c)[0] = b := by
        simpa [List.head?_eq_getElem?, List.getElem?_append_left hpos,
          List.getElem?_eq_getElem hpos] using h
      rw [← hb, UInt8.isUTF8FirstByte_getElem_utf8EncodeChar]

theorem Lossy.append_text {bs : Octets} {cs : List Char} (h : Lossy bs cs) (ds : List Char) :
    Lossy (bs ++ encodeChars ds) (cs ++ ds) := by
  induction h with
  | nil => simpa using Lossy.text_append ds .nil
  | char c _ ih =>
      rw [List.append_assoc]
      exact .char c ih
  | stray hb _ ih => exact .stray hb ih
  | @part p bs cs hne hp hstop _ ih =>
      rw [List.append_assoc]
      refine .part hne hp (fun b hb hcontinues => ?_) ih
      -- Only a part at the very end has a new byte behind it.
      cases bs with
      | nil => exact hcontinues.not_first hne (isUTF8FirstByte_of_head hb)
      | cons b' bs => exact hstop b hb hcontinues

/-! ### The machine inside a character -/

/-- The machine has read `p` as the beginning of a character and is in the state `s`. -/
inductive Opened : Octets → Begun → Prop
  | lead {b : UInt8} {s : Begun} (h : start b = ([], some s)) : Opened [b] s
  | more {p : Octets} {b : UInt8} {s s' : Begun} (h : Opened p s)
      (hb : s.proceed b = ([], some s')) : Opened (p ++ [b]) s'

theorem Opened.ne_nil {p : Octets} {s : Begun} (h : Opened p s) : p ≠ [] := by
  cases h <;> simp

theorem Opened.decodeFrom_append {p : Octets} {s : Begun} (h : Opened p s) (bs : Octets) :
    decodeFrom none (p ++ bs) = decodeFrom (some s) bs := by
  induction h generalizing bs with
  | lead h => exact decodeFrom_open h bs
  | more _ hb ih => simp [ih, decodeFrom_cons, feed, hb]

/-- The byte `b` is the first of two, three or four and leaves the machine in the state
`s`. The range of the next byte keeps out overlong forms, surrogates and numbers past
the last character. -/
def Leads (b : UInt8) (s : Begun) : Prop :=
  0x80 ≤ s.low.toNat ∧ s.low.toNat ≤ s.high.toNat ∧ s.high.toNat ≤ 0xBF
  ∧ (s.later = 0 ∧ b.toNat = s.value + 0xC0 ∧ 2 ≤ s.value ∧ s.value < 0x20
    ∨ s.later = 1 ∧ b.toNat = s.value + 0xE0 ∧ s.value < 0x10
      ∧ (s.value = 0 → 0xA0 ≤ s.low.toNat) ∧ (s.value = 0xD → s.high.toNat ≤ 0x9F)
    ∨ s.later = 2 ∧ b.toNat = s.value + 0xF0 ∧ s.value ≤ 4
      ∧ (s.value = 0 → 0x90 ≤ s.low.toNat) ∧ (s.value = 4 → s.high.toNat ≤ 0x8F))

/-- A byte between characters is a character, is replaced, or begins a character. -/
theorem start_cases (b : UInt8) :
    (start b = ([Char.ofNat b.toNat], none) ∧ b.toNat < 0x80)
      ∨ start b = ([replacement], none) ∨ ∃ s, start b = ([], some s) ∧ Leads b s := by
  simp only [start, Leads, UInt8.lt_iff_toNat_lt, ← UInt8.toNat_inj, UInt8.reduceToNat]
  -- The tests of the machine, in its order.
  by_cases single : b.toNat < 0x80
  · exact .inl ⟨if_pos single, single⟩
  right
  rw [if_neg single]
  by_cases stray : b.toNat < 0xC2
  · exact .inl (if_pos stray)
  rw [if_neg stray]
  by_cases two : b.toNat < 0xE0
  · exact .inr ⟨_, if_pos two, by simp only [UInt8.reduceToNat, true_and]; omega⟩
  rw [if_neg two]
  by_cases shortest₃ : b.toNat = 0xE0
  · exact .inr ⟨_, if_pos shortest₃, by simp only [UInt8.reduceToNat, true_and]; omega⟩
  rw [if_neg shortest₃]
  by_cases surrogates : b.toNat = 0xED
  · exact .inr ⟨_, if_pos surrogates, by simp only [UInt8.reduceToNat, true_and]; omega⟩
  rw [if_neg surrogates]
  by_cases three : b.toNat < 0xF0
  · exact .inr ⟨_, if_pos three, by simp only [UInt8.reduceToNat, true_and]; omega⟩
  rw [if_neg three]
  by_cases shortest₄ : b.toNat = 0xF0
  · exact .inr ⟨_, if_pos shortest₄, by simp only [UInt8.reduceToNat, true_and]; omega⟩
  rw [if_neg shortest₄]
  by_cases four : b.toNat < 0xF4
  · exact .inr ⟨_, if_pos four, by simp only [UInt8.reduceToNat, true_and]; omega⟩
  rw [if_neg four]
  by_cases longest : b.toNat = 0xF4
  · exact .inr ⟨_, if_pos longest, by simp only [UInt8.reduceToNat, true_and]; omega⟩
  rw [if_neg longest]
  exact .inl rfl

theorem start_opens {b : UInt8} {s : Begun} (h : start b = ([], some s)) : Leads b s := by
  obtain ⟨h', -⟩ | h' | ⟨s', h', leads⟩ := start_cases b
  · simp [h'] at h
  · simp [h'] at h
  · obtain rfl : s' = s := by simpa [h'] using h
    exact leads

/-- A byte that leaves a character open adds six bits to it. -/
theorem proceed_opens {s s' : Begun} {b : UInt8} (h : s.proceed b = ([], some s')) :
    s.low.toNat ≤ b.toNat ∧ b.toNat ≤ s.high.toNat ∧ s.later = s'.later + 1
      ∧ s'.value = s.value * 64 + (b.toNat - 0x80)
      ∧ s'.low.toNat = 0x80 ∧ s'.high.toNat = 0xBF := by
  obtain ⟨value, later, low, high⟩ := s
  unfold Begun.proceed at h
  split at h
  · next hrange =>
    cases later with
    | zero => simp at h
    | succ later =>
        simp only [Prod.mk.injEq, Option.some.injEq, true_and] at h
        subst h
        exact ⟨hrange.1, hrange.2, rfl, rfl, rfl, rfl⟩
  · simp at h

/-- At most three bytes come behind a lead byte. -/
theorem Opened.later_le {p : Octets} {s : Begun} (h : Opened p s) : s.later ≤ 2 := by
  induction h with
  | lead h =>
      obtain ⟨-, -, -, h⟩ := start_opens h
      omega
  | more _ hb ih =>
      obtain ⟨-, -, hlater, -⟩ := proceed_opens hb
      omega

/-! ### Completing a character -/

/-- The encoder looks at a character as a number. -/
theorem encodeChar_ofNat {v : Nat} (h : v.isValidChar) :
    String.utf8EncodeChar (Char.ofNat v)
      = if v ≤ 0x7F then [UInt8.ofNat v]
        else if v ≤ 0x7FF then [UInt8.ofNat (v / 64 % 0x20 + 0xC0), continuation v]
        else if v ≤ 0xFFFF then
          [UInt8.ofNat (v / 4096 % 0x10 + 0xE0), continuation (v / 64), continuation v]
        else [UInt8.ofNat (v / 262144 % 0x08 + 0xF0), continuation (v / 4096),
          continuation (v / 64), continuation v] := by
  have hv : (Char.ofNat v).val.toNat = v := by
    rw [Char.ofNat, dif_pos h]
    rfl
  unfold String.utf8EncodeChar
  rw [hv]
  rfl

/-- The bits of a two-byte character, five and six. -/
theorem encodeChar_two {x y : Nat} (hx : 2 ≤ x) (hx' : x < 0x20) (hy : y < 64) :
    String.utf8EncodeChar (Char.ofNat (x * 64 + y)) = [UInt8.ofNat (x + 0xC0), continuation y] := by
  rw [encodeChar_ofNat (.inl (by omega)), if_neg (by omega), if_pos (by omega)]
  simp only [List.cons.injEq, and_true, ← UInt8.toNat_inj, toNat_continuation, UInt8.toNat_ofNat']
  omega

/-- The bits of a three-byte character, four, six and six. -/
theorem encodeChar_three {x y z : Nat} (hx : x < 0x10) (hy : y < 64) (hz : z < 64)
    (hshortest : x = 0 → 0x20 ≤ y) (hsurrogates : x = 0xD → y < 0x20) :
    String.utf8EncodeChar (Char.ofNat ((x * 64 + y) * 64 + z))
      = [UInt8.ofNat (x + 0xE0), continuation y, continuation z] := by
  have hvalid : ((x * 64 + y) * 64 + z).isValidChar := by
    unfold Nat.isValidChar
    omega
  rw [encodeChar_ofNat hvalid, if_neg (by omega), if_neg (by omega), if_pos (by omega)]
  simp only [List.cons.injEq, and_true, ← UInt8.toNat_inj, toNat_continuation, UInt8.toNat_ofNat']
  omega

/-- The bits of a four-byte character, three and three times six. -/
theorem encodeChar_four {x y z w : Nat} (hx : x ≤ 4) (hy : y < 64) (hz : z < 64) (hw : w < 64)
    (hshortest : x = 0 → 0x10 ≤ y) (hlongest : x = 4 → y < 0x10) :
    String.utf8EncodeChar (Char.ofNat (((x * 64 + y) * 64 + z) * 64 + w))
      = [UInt8.ofNat (x + 0xF0), continuation y, continuation z, continuation w] := by
  rw [encodeChar_ofNat (.inr (by omega)), if_neg (by omega), if_neg (by omega), if_neg (by omega)]
  simp only [List.cons.injEq, and_true, ← UInt8.toNat_inj, toNat_continuation, UInt8.toNat_ofNat']
  omega

theorem ofNat_of_toNat_eq {b : UInt8} {n : Nat} (h : b.toNat = n) : UInt8.ofNat n = b := by
  rw [← h, UInt8.ofNat_toNat]

theorem continuation_sub {b : UInt8} (hlow : 0x80 ≤ b.toNat) (hhigh : b.toNat ≤ 0xBF) :
    continuation (b.toNat - 0x80) = b := by
  rw [← UInt8.toNat_inj, toNat_continuation]
  omega

/-- The last byte completes a character: the encoder takes the number apart into the
bytes that it was put together from. -/
theorem Opened.encodeChar_eq {p : Octets} {s : Begun} {b : UInt8} (h : Opened p s)
    (hlater : s.later = 0) (hlow : s.low ≤ b) (hhigh : b ≤ s.high) :
    String.utf8EncodeChar (Char.ofNat (s.value * 64 + (b.toNat - 0x80))) = p ++ [b] := by
  rw [UInt8.le_iff_toNat_le] at hlow hhigh
  -- Two, three or four bytes, by how many have been read before the last one.
  cases h with
  | @lead b₀ _ h =>
      obtain ⟨_, _, _, hlead⟩ := start_opens h
      rw [encodeChar_two (by omega) (by omega) (by omega), ofNat_of_toNat_eq (b := b₀) (by omega),
        continuation_sub (by omega) (by omega)]
      rfl
  | more h hb =>
      obtain ⟨_, _, hlater₁, hvalue₁, _, _⟩ := proceed_opens hb
      cases h with
      | @lead b₀ _ h =>
          obtain ⟨_, _, _, hlead⟩ := start_opens h
          rw [hvalue₁, encodeChar_three (by omega) (by omega) (by omega) (by omega) (by omega),
            continuation_sub (by omega) (by omega), continuation_sub (by omega) (by omega),
            ofNat_of_toNat_eq (b := b₀) (by omega)]
          rfl
      | more h hb =>
          obtain ⟨_, _, hlater₂, hvalue₂, _, _⟩ := proceed_opens hb
          cases h with
          | @lead b₀ _ h =>
              obtain ⟨_, _, _, hlead⟩ := start_opens h
              rw [hvalue₁, hvalue₂, encodeChar_four (by omega) (by omega) (by omega) (by omega)
                  (by omega) (by omega), continuation_sub (by omega) (by omega),
                continuation_sub (by omega) (by omega), continuation_sub (by omega) (by omega),
                ofNat_of_toNat_eq (b := b₀) (by omega)]
              rfl
          | more h hb =>
              obtain ⟨-, -, hlater₃, -⟩ := proceed_opens hb
              have := h.later_le
              omega

/-- A byte below 0x80 is a character. -/
theorem encodeChar_of_lt {b : UInt8} (h : b.toNat < 0x80) :
    String.utf8EncodeChar (Char.ofNat b.toNat) = [b] := by
  rw [encodeChar_ofNat (.inl (by omega)), if_pos (by omega), UInt8.ofNat_toNat]

/-- A byte in the range that the machine asks for goes on towards some character. -/
theorem Opened.continues {p : Octets} {s : Begun} {b : UInt8} (h : Opened p s)
    (hlow : s.low ≤ b) (hhigh : b ≤ s.high) : Continues p b := by
  obtain ⟨value, later, low, high⟩ := s
  induction later generalizing p value low high b with
  | zero => exact ⟨_, [], h.encodeChar_eq rfl hlow hhigh⟩
  | succ later ih =>
      -- Behind it the least continuation byte will do.
      have continuationRange : (0x80 : UInt8) ≤ 0xBF := by decide
      have hnext : Opened (p ++ [b]) ⟨value * 64 + (b.toNat - 0x80), later, 0x80, 0xBF⟩ :=
        .more h (by simp [Begun.proceed, hlow, hhigh])
      obtain ⟨c, rest, hc⟩ := ih _ _ _ hnext (UInt8.le_refl 0x80) continuationRange
      exact ⟨c, 0x80 :: rest, by simpa using hc⟩

/-! ### The range of the next byte -/

/-- A byte outside the range ends the part in front of it. -/
theorem decodeFrom_refused {s : Begun} {b : UInt8} (h : ¬ (s.low ≤ b ∧ b ≤ s.high)) (bs : Octets) :
    decodeFrom (some s) (b :: bs) = replacement :: decodeFrom none (b :: bs) := by
  simp [decodeFrom_cons, feed, Begun.proceed, h]

/-- A byte inside it is the last one of a character, or leaves the character open. -/
theorem proceed_cases {s : Begun} {b : UInt8} (hlow : s.low ≤ b) (hhigh : b ≤ s.high) :
    (s.later = 0 ∧ s.proceed b = ([Char.ofNat (s.value * 64 + (b.toNat - 0x80))], none))
      ∨ ∃ s', s.proceed b = ([], some s') := by
  obtain ⟨value, later, low, high⟩ := s
  cases later <;> simp [Begun.proceed, hlow, hhigh]

/-- An open character gives something, be it its replacement. -/
theorem decodeFrom_some_ne_nil (s : Begun) (bs : Octets) : decodeFrom (some s) bs ≠ [] := by
  induction bs generalizing s with
  | nil => simp
  | cons b bs ih =>
      by_cases hrange : s.low ≤ b ∧ b ≤ s.high
      · obtain ⟨-, hb⟩ | ⟨s', hb⟩ := proceed_cases hrange.1 hrange.2
        · simp [decodeFrom_cons, feed, hb]
        · simp [decodeFrom_cons, feed, hb, ih]
      · simp [decodeFrom_refused hrange]

theorem decodeFrom_none_ne_nil {bs : Octets} (hne : bs ≠ []) : decodeFrom none bs ≠ [] := by
  obtain ⟨b, bs, rfl⟩ := List.exists_cons_of_ne_nil hne
  obtain ⟨h, -⟩ | h | ⟨s, h, -⟩ := start_cases b
  · simp [decodeFrom_cons, feed, h]
  · simp [decodeFrom_cons, feed, h]
  · simp [decodeFrom_cons, feed, h, decodeFrom_some_ne_nil]

/-- **The range of the machine** holds exactly the bytes that continue what it has read. -/
theorem Opened.continues_iff {p : Octets} {s : Begun} {b : UInt8} (h : Opened p s) :
    Continues p b ↔ s.low ≤ b ∧ b ≤ s.high := by
  constructor
  · intro hcontinues
    refine Decidable.byContradiction fun hout => ?_
    obtain ⟨c, rest, hc⟩ := hcontinues
    have hread := decodeFrom_encodeChar c []
    rw [List.append_nil, hc, h.decodeFrom_append, decodeFrom_refused hout] at hread
    exact decodeFrom_none_ne_nil (List.cons_ne_nil b rest) (List.cons.inj hread).2
  · intro hrange
    exact h.continues hrange.1 hrange.2

theorem Opened.exists_continues {p : Octets} {s : Begun} (h : Opened p s) :
    ∃ b, Continues p b := by
  have hrange : s.low.toNat ≤ s.high.toNat := by
    cases h with
    | lead h => exact (start_opens h).2.1
    | more _ hb =>
        obtain ⟨-, -, -, -, hlow, hhigh⟩ := proceed_opens hb
        omega
  exact ⟨s.low, h.continues (UInt8.le_refl _) hrange⟩

/-- A character that has begun stays open while there are bytes of it to come. -/
theorem Opened.extend {p q rest : Octets} {s : Begun} {c : Char} (h : Opened p s)
    (hne : rest ≠ []) (hread : decodeFrom (some s) (q ++ rest) = [c]) :
    ∃ s', Opened (p ++ q) s' := by
  induction q generalizing p s with
  | nil => exact ⟨s, by simpa using h⟩
  | cons b q ih =>
      have hmore : decodeFrom none (q ++ rest) ≠ [] := decodeFrom_none_ne_nil (by simp [hne])
      rw [List.cons_append] at hread
      by_cases hrange : s.low ≤ b ∧ b ≤ s.high
      · obtain ⟨-, hb⟩ | ⟨s', hb⟩ := proceed_cases hrange.1 hrange.2
        · rw [decodeFrom_cons, feed, hb] at hread
          exact absurd (List.cons.inj hread).2 hmore
        · rw [decodeFrom_cons, feed, hb] at hread
          simpa using ih (h.more hb) hread
      · rw [decodeFrom_refused hrange] at hread
        exact absurd (List.cons.inj hread).2 (decodeFrom_none_ne_nil (List.cons_ne_nil _ _))

/-- The machine has opened every proper beginning of a character. -/
theorem Continues.opened {p : Octets} {b : UInt8} (h : Continues p b) (hne : p ≠ []) :
    ∃ s, Opened p s := by
  obtain ⟨c, rest, hc⟩ := h
  obtain ⟨b₀, q, rfl⟩ := List.exists_cons_of_ne_nil hne
  have hread := decodeFrom_encodeChar c []
  have hmore : decodeFrom none (q ++ b :: rest) ≠ [] := decodeFrom_none_ne_nil (by simp)
  rw [List.append_nil, hc, List.cons_append, decodeFrom_cons, feed] at hread
  obtain ⟨h, -⟩ | h | ⟨s, h, -⟩ := start_cases b₀ <;> rw [h] at hread
  · exact absurd (List.cons.inj hread).2 hmore
  · exact absurd (List.cons.inj hread).2 hmore
  · exact (Opened.lead h).extend (List.cons_ne_nil b rest) hread

/-- A single byte is replaced exactly when no character begins with it. -/
theorem start_eq_replacement_iff {b : UInt8} :
    start b = ([replacement], none) ↔ ¬ Continues [] b := by
  constructor
  · rintro h ⟨c, rest, hc⟩
    rw [List.nil_append] at hc
    have hread := decodeFrom_encodeChar c []
    rw [List.append_nil, hc, decodeFrom_cons, feed, h] at hread
    obtain ⟨rfl, hrest⟩ := List.cons.inj hread
    -- The byte would be all of the replacement character, which has three.
    have hnil : rest = [] := Decidable.byContradiction fun hne => decodeFrom_none_ne_nil hne hrest
    have hlength : (String.utf8EncodeChar replacement).length = 3 := by decide
    rw [hc, hnil] at hlength
    simp at hlength
  · intro hb
    obtain ⟨-, h⟩ | h | ⟨s, h, -⟩ := start_cases b
    · exact absurd ⟨_, [], encodeChar_of_lt h⟩ hb
    · exact h
    · obtain ⟨b', c, rest, hc⟩ := (Opened.lead h).exists_continues
      exact absurd ⟨c, b' :: rest, hc⟩ hb

/-! ### The machine follows the rule -/

theorem Lossy.decodeFrom_eq {bs : Octets} {cs : List Char} (h : Lossy bs cs) :
    decodeFrom none bs = cs := by
  induction h with
  | nil => rfl
  | char c _ ih => rw [decodeFrom_encodeChar, ih]
  | stray hb _ ih =>
      rw [decodeFrom_cons, feed, start_eq_replacement_iff.mpr hb, ih]
      rfl
  | @part p bs cs hne hp hstop _ ih =>
      obtain ⟨b, hb⟩ := hp
      obtain ⟨s, hs⟩ := hb.opened hne
      rw [hs.decodeFrom_append]
      cases bs with
      | nil =>
          rw [← ih]
          rfl
      | cons b bs => rw [decodeFrom_refused (mt hs.continues_iff.mpr (hstop b rfl)), ih]

/-- From inside a character, either it is completed, or the longest beginning of one
that the bytes have is an ill-formed part. -/
theorem Opened.char_or_part {p : Octets} {s : Begun} (h : Opened p s) (bs : Octets) :
    (∃ c rest, p ++ bs = String.utf8EncodeChar c ++ rest)
      ∨ ∃ q rest, p ++ bs = q ++ rest ∧ (∃ s', Opened q s')
        ∧ ∀ b ∈ rest.head?, ¬ Continues q b := by
  induction bs generalizing p s with
  | nil => exact .inr ⟨p, [], rfl, ⟨s, h⟩, by simp⟩
  | cons b bs ih =>
      by_cases hrange : s.low ≤ b ∧ b ≤ s.high
      · obtain ⟨hlater, hb⟩ | ⟨s', hb⟩ := proceed_cases hrange.1 hrange.2
        · refine .inl ⟨Char.ofNat (s.value * 64 + (b.toNat - 0x80)), bs, ?_⟩
          rw [h.encodeChar_eq hlater hrange.1 hrange.2, List.append_assoc, List.singleton_append]
        · simpa using ih (h.more hb)
      · refine .inr ⟨p, b :: bs, rfl, ⟨s, h⟩, ?_⟩
        rintro _ ⟨⟩ hcontinues
        exact hrange (h.continues_iff.mp hcontinues)

/-- The rule always takes at least one byte, and gives one character for what it takes. -/
theorem Lossy.exists_step (b : UInt8) (bs : Octets) :
    ∃ c rest, rest.length ≤ bs.length ∧ ∀ cs, Lossy rest cs → Lossy (b :: bs) (c :: cs) := by
  obtain ⟨-, hb⟩ | hb | ⟨s, hb, -⟩ := start_cases b
  · refine ⟨Char.ofNat b.toNat, bs, Nat.le_refl _, fun cs h => ?_⟩
    simpa [encodeChar_of_lt hb] using Lossy.char (Char.ofNat b.toNat) h
  · exact ⟨replacement, bs, Nat.le_refl _, fun cs => .stray (start_eq_replacement_iff.mp hb)⟩
  · obtain ⟨c, rest, heq⟩ | ⟨q, rest, heq, ⟨s', hq⟩, hstop⟩ := (Opened.lead hb).char_or_part bs
    · have hlength : bs.length + 1 = c.utf8Size + rest.length := by
        simpa using congrArg List.length heq
      have hpos := c.utf8Size_pos
      refine ⟨c, rest, by omega, fun cs h => ?_⟩
      rw [← List.singleton_append, heq]
      exact .char c h
    · have hlength : bs.length + 1 = q.length + rest.length := by
        simpa using congrArg List.length heq
      have hpos := List.length_pos_iff.mpr hq.ne_nil
      refine ⟨replacement, rest, by omega, fun cs h => ?_⟩
      rw [← List.singleton_append, heq]
      exact .part hq.ne_nil hq.exists_continues hstop h

theorem exists_lossy (bs : Octets) : ∃ cs, Lossy bs cs :=
  match bs with
  | [] => ⟨[], .nil⟩
  | b :: bs => by
      obtain ⟨c, rest, hle, hstep⟩ := Lossy.exists_step b bs
      obtain ⟨cs, h⟩ := exists_lossy rest
      exact ⟨c :: cs, hstep cs h⟩
termination_by bs.length

/-- **The machine follows the rule**, which allows nothing else. -/
theorem lossy_iff {bs : Octets} {cs : List Char} : Lossy bs cs ↔ cs = decodeFrom none bs := by
  constructor
  · intro h
    exact h.decodeFrom_eq.symm
  · rintro rfl
    obtain ⟨cs, h⟩ := exists_lossy bs
    rw [h.decodeFrom_eq]
    exact h

theorem lossy_toList_iff {bs : Octets} {s : String} : Lossy bs s.toList ↔ s = decode bs := by
  rw [lossy_iff, decode, ← String.toList_inj, String.toList_ofList]

/-! ### Damaged texts -/

theorem decode_damaged (s t : String) (u : Octets) :
    decode (encode s ++ u ++ encode t) = s ++ decode u ++ t := by
  have hu : Lossy u (decodeFrom none u) := lossy_iff.mpr rfl
  have hall := (hu.append_text t.toList).text_append s.toList
  rw [decode, encode, encode, List.append_assoc, hall.decodeFrom_eq, decode, String.ofList_append,
    String.ofList_append, String.ofList_toList, String.ofList_toList, String.append_assoc]

section Reading

variable {ε : Type} [ReportsDecodeError ε]

/-- Wherever the bytes stand behind their length they are read as `s`, and reading
ends right behind them. -/
def ReadAs (ε : Type) [ReportsDecodeError ε] (bytes : Octets) (s : String) : Prop :=
  ∀ before after : Octets,
    let whole := before ++ (LittleEndian.encode 4 bytes.length ++ bytes) ++ after
    (ReadM.text : ReadM ε String) (.within whole before.length)
      = .ok s (.within whole (before.length + (4 + bytes.length)))

theorem readAs_decode {bytes : Octets} (h : bytes.length ≤ Builder.maxTextLength) :
    ReadAs ε bytes (decode bytes) := by
  intro before after whole
  have hlt : bytes.length < UInt32.size := Nat.lt_of_le_of_lt h (by decide)
  have hcross :=
    Cursor.within_crosses before (LittleEndian.encode 4 bytes.length ++ bytes) after
  rw [List.length_append, LittleEndian.length_encode] at hcross
  exact ReadM.text_eq_ok_iff.mpr ⟨bytes, hlt, rfl, hcross⟩

/-- **Bad bytes in a text damage only themselves.** Between two texts, any bytes are
read as what they are read as alone, which is the one reading that the rule allows.
Reading never fails, and consumes the length and the bytes that it announces. No
bytes are read as no text; and what has been read, if its length can be announced at
all, is read again as it is from what is written of it, anywhere. -/
theorem damage_is_local (s t : String) (u : Octets)
    (h : (encode s ++ u ++ encode t).length ≤ Builder.maxTextLength) :
    ∃ r : String, (∀ cs, Lossy u cs ↔ cs = r.toList)
      ∧ ReadAs ε u r
      ∧ ReadAs ε (encode s ++ u ++ encode t) (s ++ r ++ t)
      ∧ (u = [] → r = "")
      ∧ ((encode (s ++ r ++ t)).length ≤ Builder.maxTextLength →
          ∀ (b : Builder) (after : Octets),
            let written := b.text (s ++ r ++ t)
            (ReadM.text : ReadM ε String) (.within (written.toOctets ++ after) b.size)
              = .ok (s ++ r ++ t) (.within (written.toOctets ++ after) written.size)) := by
  have hu : u.length ≤ Builder.maxTextLength := by
    simp only [List.length_append] at h
    omega
  refine ⟨decode u, fun cs => ?_, readAs_decode hu, ?_, ?_, ?_⟩
  · rw [lossy_iff, decode, String.toList_ofList]
  · rw [← decode_damaged]
    exact readAs_decode h
  · rintro rfl
    rfl
  · intro hfits b after written
    have hread := readAs_decode (ε := ε) hfits b.toOctets after
    rw [decode_encode] at hread
    have hwritten : written.toOctets = b.toOctets
        ++ (LittleEndian.encode 4 (encode (s ++ decode u ++ t)).length
          ++ encode (s ++ decode u ++ t)) := by
      rw [Builder.toOctets_text b hfits, List.append_assoc]
    rw [hwritten, ← Builder.length_toOctets, ← Builder.length_toOctets, hwritten]
    simpa using hread

end Reading

/-- A three-byte character without its last byte, between a two-byte character and a
four-byte one. -/
theorem damage_is_local_truncated :
    (encode "é" ++ [0xE2, 0x82] ++ encode "😀").length ≤ Builder.maxTextLength
      ∧ (ReadM.text : ReadM DecodeError String) (.start
          [8, 0, 0, 0, 0xC3, 0xA9, 0xE2, 0x82, 0xF0, 0x9F, 0x98, 0x80])
        = .ok "é\uFFFD😀" ⟨12, []⟩
      ∧ (ReadM.text : ReadM DecodeError String) (.start (Builder.empty.text "é\uFFFD😀").toOctets)
        = .ok "é\uFFFD😀" ⟨13, []⟩ := by
  have hlength : (encode "é" ++ [0xE2, 0x82] ++ encode "😀").length ≤ Builder.maxTextLength := by
    decide
  obtain ⟨r, hrule, -, hread, -, hagain⟩ :=
    damage_is_local (ε := DecodeError) "é" "😀" [0xE2, 0x82] hlength
  -- The two bytes are one ill-formed part.
  have hr : [replacement] = r.toList := (hrule _).mp (lossy_iff.mpr (by decide))
  have htext : "é" ++ r ++ "😀" = "é\uFFFD😀" := by
    rw [← String.toList_inj, String.toList_append, String.toList_append, ← hr]
    decide
  rw [htext] at hread hagain
  exact ⟨hlength, hread [] [], hagain (by decide) Builder.empty []⟩

end Thermoscape.Utf8

import Keyfob.Text.Utf8

/-!
# Reading back what was written as UTF-8

A character is read back from its bytes whatever bytes follow, so a text is read back from its
bytes, and the texts of two stretches of bytes are read one after the other.
-/
namespace Keyfob.Text

/-- A byte that a small number makes is that number. -/
theorem toNat_byte {n : Nat} (small : n < 256) : (UInt8.ofNat n).toNat = n := by
  rw [UInt8.toNat_ofNat']
  exact Nat.mod_eq_of_lt small

/-- A continuation byte, by its number. -/
theorem isContinuation_iff (b : UInt8) :
    isContinuation b = true ↔ 0x80 ≤ b.toNat ∧ b.toNat ≤ 0xbf := by
  unfold isContinuation
  rw [Bool.and_eq_true, decide_eq_true_eq, decide_eq_true_eq, UInt8.le_iff_toNat_le,
    UInt8.le_iff_toNat_le]
  exact Iff.rfl

/-- The bytes that may follow a first byte, by their numbers. -/
theorem mayFollow_of_toNat {first second : UInt8} (low : 0x80 ≤ second.toNat)
    (high : second.toNat ≤ 0xbf) (e0 : first.toNat = 0xe0 → 0xa0 ≤ second.toNat)
    (ed : first.toNat = 0xed → second.toNat ≤ 0x9f)
    (f0 : first.toNat = 0xf0 → 0x90 ≤ second.toNat)
    (f4 : first.toNat = 0xf4 → second.toNat ≤ 0x8f) : mayFollow first second = true := by
  unfold mayFollow
  split
  · next same =>
    have least := e0 (congrArg UInt8.toNat same)
    rw [Bool.and_eq_true, decide_eq_true_eq, decide_eq_true_eq, UInt8.le_iff_toNat_le,
      UInt8.le_iff_toNat_le]
    exact ⟨least, high⟩
  split
  · next same =>
    have most := ed (congrArg UInt8.toNat same)
    rw [Bool.and_eq_true, decide_eq_true_eq, decide_eq_true_eq, UInt8.le_iff_toNat_le,
      UInt8.le_iff_toNat_le]
    exact ⟨low, most⟩
  split
  · next same =>
    have least := f0 (congrArg UInt8.toNat same)
    rw [Bool.and_eq_true, decide_eq_true_eq, decide_eq_true_eq, UInt8.le_iff_toNat_le,
      UInt8.le_iff_toNat_le]
    exact ⟨least, high⟩
  split
  · next same =>
    have most := f4 (congrArg UInt8.toNat same)
    rw [Bool.and_eq_true, decide_eq_true_eq, decide_eq_true_eq, UInt8.le_iff_toNat_le,
      UInt8.le_iff_toNat_le]
    exact ⟨low, most⟩
  · exact (isContinuation_iff second).mpr ⟨low, high⟩

/-- A first byte below 128 is a character of its own. -/
theorem decodeFirst_one {first : UInt8} (rest : List UInt8) (small : first.toNat < 0x80) :
    decodeFirst first rest = (some (Char.ofNat first.toNat), 0) := by
  unfold decodeFirst
  rw [if_pos (UInt8.lt_iff_toNat_lt.mpr small)]

/-- A first byte from 194 to 244 begins a character of several bytes. -/
theorem begins_of_toNat {first : UInt8} (low : 0xc2 ≤ first.toNat) (high : first.toNat ≤ 0xf4) :
    ¬first < 0x80 ∧ ¬(first < 0xc2 || 0xf4 < first) = true := by
  constructor
  · intro single
    have small := UInt8.lt_iff_toNat_lt.mp single
    change first.toNat < 0x80 at small
    omega
  · intro outside
    rw [Bool.or_eq_true, decide_eq_true_eq, decide_eq_true_eq, UInt8.lt_iff_toNat_lt,
      UInt8.lt_iff_toNat_lt] at outside
    change first.toNat < 0xc2 ∨ 0xf4 < first.toNat at outside
    omega

/-- A first byte from 194 to 223 takes one byte after it. -/
theorem decodeFirst_two {first second : UInt8} (rest : List UInt8) (low : 0xc2 ≤ first.toNat)
    (high : first.toNat < 0xe0) (follows : mayFollow first second = true) :
    decodeFirst first (second :: rest) =
      (some (Char.ofNat (first.toNat % 32 * 64 + continuationBits second)), 1) := by
  obtain ⟨several, begins⟩ := begins_of_toNat low (by omega)
  unfold decodeFirst
  rw [if_neg several, if_neg begins]
  simp only [follows, Bool.not_true, Bool.false_eq_true, if_false]
  rw [if_pos (UInt8.lt_iff_toNat_lt.mpr high)]

/-- A first byte from 224 to 239 takes two bytes after it. -/
theorem decodeFirst_three {first second third : UInt8} (rest : List UInt8)
    (low : 0xe0 ≤ first.toNat) (high : first.toNat < 0xf0)
    (follows : mayFollow first second = true) (continues : isContinuation third = true) :
    decodeFirst first (second :: third :: rest) =
      (some (Char.ofNat ((first.toNat % 16 * 64 + continuationBits second) * 64 +
        continuationBits third)), 2) := by
  have leads : 0xc2 ≤ first.toNat := by omega
  obtain ⟨several, begins⟩ := begins_of_toNat leads (by omega)
  have more : ¬first < 0xe0 := fun h => absurd (UInt8.lt_iff_toNat_lt.mp h) (Nat.not_lt.mpr low)
  unfold decodeFirst
  rw [if_neg several, if_neg begins]
  simp only [follows, Bool.not_true, Bool.false_eq_true, if_false, if_neg more, continues]
  rw [if_pos (UInt8.lt_iff_toNat_lt.mpr high)]

/-- A first byte from 240 to 244 takes three bytes after it. -/
theorem decodeFirst_four {first second third fourth : UInt8} (rest : List UInt8)
    (low : 0xf0 ≤ first.toNat) (high : first.toNat ≤ 0xf4)
    (follows : mayFollow first second = true) (continues : isContinuation third = true)
    (ends : isContinuation fourth = true) :
    decodeFirst first (second :: third :: fourth :: rest) =
      (some (Char.ofNat (((first.toNat % 8 * 64 + continuationBits second) * 64 +
        continuationBits third) * 64 + continuationBits fourth)), 3) := by
  have leads : 0xc2 ≤ first.toNat := by omega
  obtain ⟨several, begins⟩ := begins_of_toNat leads high
  have notTwo : ¬first < 0xe0 := fun h => by
    have small := UInt8.lt_iff_toNat_lt.mp h
    change first.toNat < 0xe0 at small
    omega
  have notThree : ¬first < 0xf0 := fun h =>
    absurd (UInt8.lt_iff_toNat_lt.mp h) (Nat.not_lt.mpr low)
  unfold decodeFirst
  rw [if_neg several, if_neg begins]
  simp only [follows, Bool.not_true, Bool.false_eq_true, if_false, if_neg notTwo, continues,
    if_neg notThree, ends]

/-- The six bits that a continuation byte was made of. -/
theorem continuationBits_byte (n : Nat) :
    continuationBits (UInt8.ofNat (n % 64 + 0x80)) = n % 64 := by
  unfold continuationBits
  rw [toNat_byte (by omega)]
  omega

/-- Six bits make a continuation byte. -/
theorem isContinuation_byte (n : Nat) : isContinuation (UInt8.ofNat (n % 64 + 0x80)) = true := by
  rw [isContinuation_iff, toNat_byte (by omega)]
  omega

/-- A character is read from its bytes, whatever bytes follow. -/
theorem decodeFirst_utf8EncodeChar (c : Char) (rest : List UInt8) :
    ∃ first more, String.utf8EncodeChar c = first :: more ∧
      decodeFirst first (more ++ rest) = (some c, more.length) := by
  have valid : c.val.toNat < 0xd800 ∨ 0xdfff < c.val.toNat ∧ c.val.toNat < 0x110000 := c.valid
  have back : Char.ofNat c.val.toNat = c := Char.ofNat_toNat c
  unfold String.utf8EncodeChar
  generalize c.val.toNat = v at valid back ⊢
  simp only
  split
  · next small =>
    refine ⟨_, _, rfl, ?_⟩
    have first : (UInt8.ofNat v).toNat = v := toNat_byte (by omega)
    rw [decodeFirst_one _ (by omega), first, back]
    rfl
  split
  · next medium =>
    refine ⟨_, _, rfl, ?_⟩
    have first : (UInt8.ofNat (v / 64 % 32 + 0xc0)).toNat = v / 64 % 32 + 0xc0 :=
      toNat_byte (by omega)
    have second : (UInt8.ofNat (v % 64 + 0x80)).toNat = v % 64 + 0x80 := toNat_byte (by omega)
    have follows : mayFollow (UInt8.ofNat (v / 64 % 32 + 0xc0)) (UInt8.ofNat (v % 64 + 0x80)) =
        true := by
      apply mayFollow_of_toNat <;> rw [second] <;> omega
    have whole : (v / 64 % 32 + 0xc0) % 32 * 64 + v % 64 = v := by omega
    rw [List.cons_append, decodeFirst_two _ (by omega) (by omega) follows,
      continuationBits_byte, first, whole, back]
    rfl
  split
  · next large =>
    refine ⟨_, _, rfl, ?_⟩
    have first : (UInt8.ofNat (v / 4096 % 16 + 0xe0)).toNat = v / 4096 % 16 + 0xe0 :=
      toNat_byte (by omega)
    have second : (UInt8.ofNat (v / 64 % 64 + 0x80)).toNat = v / 64 % 64 + 0x80 :=
      toNat_byte (by omega)
    have follows : mayFollow (UInt8.ofNat (v / 4096 % 16 + 0xe0))
        (UInt8.ofNat (v / 64 % 64 + 0x80)) = true := by
      apply mayFollow_of_toNat <;> rw [second] <;> omega
    have whole : ((v / 4096 % 16 + 0xe0) % 16 * 64 + v / 64 % 64) * 64 + v % 64 = v := by omega
    rw [List.cons_append, List.cons_append, decodeFirst_three _ (by omega) (by omega) follows
      (isContinuation_byte _), continuationBits_byte, continuationBits_byte, first, whole, back]
    rfl
  · next huge =>
    refine ⟨_, _, rfl, ?_⟩
    have first : (UInt8.ofNat (v / 262144 % 8 + 0xf0)).toNat = v / 262144 % 8 + 0xf0 :=
      toNat_byte (by omega)
    have second : (UInt8.ofNat (v / 4096 % 64 + 0x80)).toNat = v / 4096 % 64 + 0x80 :=
      toNat_byte (by omega)
    have follows : mayFollow (UInt8.ofNat (v / 262144 % 8 + 0xf0))
        (UInt8.ofNat (v / 4096 % 64 + 0x80)) = true := by
      apply mayFollow_of_toNat <;> rw [second] <;> omega
    have whole : (((v / 262144 % 8 + 0xf0) % 8 * 64 + v / 4096 % 64) * 64 + v / 64 % 64) * 64 +
        v % 64 = v := by omega
    rw [List.cons_append, List.cons_append, List.cons_append,
      decodeFirst_four _ (by omega) (by omega) follows (isContinuation_byte _)
        (isContinuation_byte _), continuationBits_byte, continuationBits_byte,
      continuationBits_byte, first, whole, back]
    rfl

/-- Bytes that the character before has taken are passed over. -/
theorem decodeAfter_append (taken rest : List UInt8) :
    decodeAfter taken.length (taken ++ rest) = decodeAfter 0 rest := by
  induction taken with
  | nil => rfl
  | cons b bytes ih => exact ih

/-- The characters of a text are read from its bytes, and then what follows them. -/
theorem decodeAfter_utf8_append (t : Text) (rest : List UInt8) :
    decodeAfter 0 (t.utf8 ++ rest) = t.map some ++ decodeAfter 0 rest := by
  induction t with
  | nil => rfl
  | cons c cs ih =>
    obtain ⟨first, more, bytes, read⟩ := decodeFirst_utf8EncodeChar c (utf8 cs ++ rest)
    have split : utf8 (c :: cs) ++ rest = first :: (more ++ (utf8 cs ++ rest)) := by
      unfold utf8
      rw [List.flatMap_cons, bytes, List.append_assoc]
      rfl
    rw [split, decodeAfter, read]
    dsimp only
    rw [decodeAfter_append, ih]
    rfl

/-- A text is read from its bytes, and then what follows them. -/
theorem decode_utf8_append (t : Text) (rest : List UInt8) :
    decode (t.utf8 ++ rest) = t ++ decode rest := by
  unfold decode
  rw [decodeAfter_utf8_append, List.map_append, List.map_map]
  exact congrArg (· ++ _) (List.map_id t)

/-- A text is read back from its bytes. -/
theorem decode_utf8 (t : Text) : decode t.utf8 = t := by
  have whole := decode_utf8_append t []
  rw [List.append_nil] at whole
  rw [whole]
  exact List.append_nil t

/-- A text is what its bytes spell throughout. -/
theorem decode?_utf8 (t : Text) : decode? t.utf8 = some t := by
  have whole := decodeAfter_utf8_append t []
  rw [List.append_nil, decodeAfter, List.append_nil] at whole
  have kept : t.mapM (id ∘ some) = some (t.map id) := List.mapM_pure
  rw [decode?, whole, List.mapM_map, kept, List.map_id]

/-- The bytes of two texts in turn are those of the texts as one. -/
theorem utf8_append (s t : Text) : utf8 (s ++ t) = s.utf8 ++ t.utf8 := List.flatMap_append

end Keyfob.Text

import Keyfob.Proofs.Link.Framing

/-!
# What reading makes of each byte

Reading bytes as UTF-8 never fails, so it makes something of bytes that spell nothing as well. A
byte below 128 is a character of its own whatever stands around it (`count_decode`), and where the
bytes of a character break off, the replacement character stands for them
(`replacement_mem_decode`). A byte among those of a text continues a character just where what
stands before it is no text (`place_of_utf8`).
-/
namespace Keyfob.Text

/-! ## What is read at a byte -/

/-- The bytes that may follow a first byte, by their numbers. -/
theorem toNat_of_mayFollow {first second : UInt8} (follows : mayFollow first second = true) :
    0x80 ≤ second.toNat ∧ second.toNat ≤ 0xbf ∧
      (first.toNat = 0xe0 → 0xa0 ≤ second.toNat) ∧ (first.toNat = 0xed → second.toNat ≤ 0x9f) ∧
      (first.toNat = 0xf0 → 0x90 ≤ second.toNat) ∧ (first.toNat = 0xf4 → second.toNat ≤ 0x8f) := by
  simp only [mayFollow, ← UInt8.toNat_inj, UInt8.le_iff_toNat_le, UInt8.reduceToNat] at follows
  split at follows
  · simp only [Bool.and_eq_true, decide_eq_true_eq] at follows
    omega
  split at follows
  · simp only [Bool.and_eq_true, decide_eq_true_eq] at follows
    omega
  split at follows
  · simp only [Bool.and_eq_true, decide_eq_true_eq] at follows
    omega
  split at follows
  · simp only [Bool.and_eq_true, decide_eq_true_eq] at follows
    omega
  · have continues := (isContinuation_iff second).mp follows
    omega

/-- A number that is no surrogate's is that of its character. -/
theorem toNat_ofNat {n : Nat} (valid : n < 0xd800 ∨ 0xdfff < n ∧ n < 0x110000) :
    (Char.ofNat n).toNat = n := by
  rw [Char.ofNat, dif_pos (show n.isValidChar from valid)]
  rfl

/-- What is read at a first byte from 128 on: the bytes after it that belong to it, and a character
that is from 128 on as well if they spell one, and the same whatever bytes follow. -/
structure ReadAt (first : UInt8) (rest : List UInt8) (c? : Option Char) (more : List UInt8) :
    Prop where
  /-- So much is read. -/
  read : decodeFirst first rest = (c?, more.length)
  /-- The bytes that belong to it come next. -/
  next : more <+: rest
  /-- They are from 128 on. -/
  large : ∀ b ∈ more, 0x80 ≤ b.toNat
  /-- So is the character. -/
  spelled : ∀ c, c? = some c →
    0x80 ≤ c.toNat ∧ ∀ later, decodeFirst first (rest ++ later) = (some c, more.length)

/-- A first byte that begins no character stands alone. -/
theorem readAt_alone {first : UInt8} {rest : List UInt8}
    (read : decodeFirst first rest = (none, 0)) : ReadAt first rest none [] :=
  ⟨read, List.nil_prefix, nofun, nofun⟩

/-- A first byte from 194 on, with a byte that may follow it, begins a character or breaks off. -/
theorem exists_readAt_of_follows {first second : UInt8} (low : 0xc2 ≤ first.toNat)
    (high : first.toNat ≤ 0xf4) (follows : mayFollow first second = true) (rest : List UInt8) :
    ∃ c? more, ReadAt first (second :: rest) c? more := by
  obtain ⟨several, begins⟩ := begins_of_toNat low high
  have range := toNat_of_mayFollow follows
  have large : ∀ b ∈ [second], 0x80 ≤ b.toNat := by simpa using range.1
  by_cases two : first.toNat < 0xe0
  · have read (rest : List UInt8) := decodeFirst_two rest low two follows
    refine ⟨_, [second], read rest, ⟨rest, rfl⟩, large, ?_⟩
    rintro c ⟨⟩
    unfold continuationBits
    exact ⟨by rw [toNat_ofNat (by omega)]; omega, fun later => read _⟩
  have notTwo : ¬first < 0xe0 := fun h => two (UInt8.lt_iff_toNat_lt.mp h)
  cases rest with
  | nil =>
    refine ⟨none, [second], ?_, List.prefix_rfl, large, nofun⟩
    simp only [decodeFirst, if_neg several, if_neg begins, follows, if_neg notTwo]
    rfl
  | cons third rest =>
    by_cases continues : isContinuation third = true
    case neg =>
      refine ⟨none, [second], ?_, ⟨third :: rest, rfl⟩, large, nofun⟩
      simp only [decodeFirst, if_neg several, if_neg begins, follows, if_neg notTwo, continues]
      rfl
    have middle := (isContinuation_iff third).mp continues
    have larger : ∀ b ∈ [second, third], 0x80 ≤ b.toNat := by simpa using ⟨range.1, middle.1⟩
    by_cases three : first.toNat < 0xf0
    · have read (rest : List UInt8) := decodeFirst_three rest (by omega) three follows continues
      refine ⟨_, [second, third], read rest, ⟨rest, rfl⟩, larger, ?_⟩
      rintro c ⟨⟩
      unfold continuationBits
      exact ⟨by rw [toNat_ofNat (by omega)]; omega, fun later => read _⟩
    have notThree : ¬first < 0xf0 := fun h => three (UInt8.lt_iff_toNat_lt.mp h)
    cases rest with
    | nil =>
      refine ⟨none, [second, third], ?_, List.prefix_rfl, larger, nofun⟩
      simp only [decodeFirst, if_neg several, if_neg begins, follows, if_neg notTwo, continues,
        if_neg notThree]
      rfl
    | cons fourth rest =>
      by_cases ends : isContinuation fourth = true
      case neg =>
        refine ⟨none, [second, third], ?_, ⟨fourth :: rest, rfl⟩, larger, nofun⟩
        simp only [decodeFirst, if_neg several, if_neg begins, follows, if_neg notTwo, continues,
          if_neg notThree, ends]
        rfl
      have last := (isContinuation_iff fourth).mp ends
      have read (rest : List UInt8) :=
        decodeFirst_four rest (by omega) high follows continues ends
      refine ⟨_, [second, third, fourth], read rest, ⟨rest, rfl⟩, ?_, ?_⟩
      · simpa using ⟨range.1, middle.1, last.1⟩
      rintro c ⟨⟩
      unfold continuationBits
      exact ⟨by rw [toNat_ofNat (by omega)]; omega, fun later => read _⟩

/-- Something is read at every first byte from 128 on. -/
theorem exists_readAt {first : UInt8} (large : 0x80 ≤ first.toNat) (rest : List UInt8) :
    ∃ c? more, ReadAt first rest c? more := by
  have several : ¬first < 0x80 := fun h => Nat.not_lt.mpr large (UInt8.lt_iff_toNat_lt.mp h)
  by_cases begins : (first < 0xc2 || 0xf4 < first) = true
  · refine ⟨none, [], readAt_alone ?_⟩
    simp only [decodeFirst, if_neg several, if_pos begins]
  cases rest with
  | nil =>
    refine ⟨none, [], readAt_alone ?_⟩
    simp only [decodeFirst, if_neg several, if_neg begins]
  | cons second rest =>
    by_cases follows : mayFollow first second = true
    case neg =>
      refine ⟨none, [], readAt_alone ?_⟩
      simp only [decodeFirst, if_neg several, if_neg begins, follows]
      rfl
    simp only [Bool.or_eq_true, decide_eq_true_eq, UInt8.lt_iff_toNat_lt, UInt8.reduceToNat]
      at begins
    exact exists_readAt_of_follows (by omega) (by omega) follows rest

/-! ## Bytes below 128 -/

/-- A character below 128 is read as often as its byte is there. -/
theorem count_decode {c : Char} (small : c.toNat < 0x80) (bytes : List UInt8) :
    (decode bytes).count c = bytes.count (UInt8.ofNat c.toNat) := by
  have own : (UInt8.ofNat c.toNat).toNat = c.toNat := toNat_byte (by omega)
  -- What the character before has taken is from 128 on, so none of it is missed.
  suffices ∀ taken, (∀ b ∈ bytes.take taken, 0x80 ≤ b.toNat) →
      ((decodeAfter taken bytes).map (·.getD replacement)).count c =
        bytes.count (UInt8.ofNat c.toNat) from this 0 (by simp)
  induction bytes with
  | nil =>
    intro taken _
    cases taken <;> rfl
  | cons b bytes ih =>
    intro taken large
    cases taken with
    | succ taken =>
      rw [List.take_succ_cons, List.forall_mem_cons] at large
      have other : b ≠ UInt8.ofNat c.toNat := by
        rintro rfl
        omega
      rw [decodeAfter, ih taken large.2, List.count_cons_of_ne other]
    | zero =>
      by_cases single : b.toNat < 0x80
      · have same : Char.ofNat b.toNat = c ↔ b = UInt8.ofNat c.toNat := by
          rw [← Char.toNat_inj, toNat_ofNat (by omega), ← UInt8.toNat_inj, own]
        rw [decodeAfter, decodeFirst_one _ single, List.map_cons, List.count_cons, List.count_cons,
          ih 0 (by simp)]
        simp only [Option.getD_some, beq_iff_eq, same]
      · obtain ⟨c?, more, at_⟩ := exists_readAt (Nat.not_lt.mp single) bytes
        have other : b ≠ UInt8.ofNat c.toNat := by
          rintro rfl
          omega
        have differs : c?.getD replacement ≠ c := by
          rintro rfl
          cases c? with
          | none => exact absurd small (by decide)
          | some d => exact Nat.not_lt.mpr (at_.spelled d rfl).1 small
        have taken : bytes.take more.length = more := (List.prefix_iff_eq_take.mp at_.next).symm
        rw [decodeAfter, at_.read, List.map_cons, List.count_cons_of_ne differs,
          ih more.length (taken.symm ▸ at_.large), List.count_cons_of_ne other]

/-! ## Characters that break off -/

/-- A byte of a character begins it or continues it. -/
theorem utf8EncodeChar_cases (c : Char) :
    ∃ first more, String.utf8EncodeChar c = first :: more ∧ isContinuation first = false ∧
      ∀ b ∈ more, isContinuation b = true := by
  have valid : c.val.toNat < 0xd800 ∨ 0xdfff < c.val.toNat ∧ c.val.toNat < 0x110000 := c.valid
  have leads {n : Nat} (low : 0xc0 ≤ n) (fits : n < 256) :
      isContinuation (UInt8.ofNat n) = false := by
    rw [← Bool.not_eq_true, isContinuation_iff, toNat_byte fits]
    omega
  unfold String.utf8EncodeChar
  generalize c.val.toNat = v at valid ⊢
  simp only
  split
  · next small =>
    refine ⟨_, _, rfl, ?_, nofun⟩
    rw [← Bool.not_eq_true, isContinuation_iff, toNat_byte (by omega)]
    omega
  split
  · refine ⟨_, _, rfl, leads (by omega) (by omega), List.forall_mem_cons.mpr ⟨?_, nofun⟩⟩
    exact isContinuation_byte _
  split
  · refine ⟨_, _, rfl, leads (by omega) (by omega), ?_⟩
    simp only [List.forall_mem_cons]
    exact ⟨isContinuation_byte _, isContinuation_byte _, nofun⟩
  · refine ⟨_, _, rfl, leads (by omega) (by omega), ?_⟩
    simp only [List.forall_mem_cons]
    exact ⟨isContinuation_byte _, isContinuation_byte _, isContinuation_byte _, nofun⟩

/-- Where the bytes of a character break off, something is read that no character is. -/
theorem replacement_mem_decode {c : Char} {lead left : List UInt8}
    (bytes : String.utf8EncodeChar c = lead ++ left) (begun : lead ≠ []) (broken : left ≠ []) :
    replacement ∈ decode lead := by
  obtain ⟨first, more, whole, read⟩ := decodeFirst_utf8EncodeChar c []
  cases lead with
  | nil => exact absurd rfl begun
  | cons b lead =>
    rw [whole, List.cons_append, List.cons.injEq] at bytes
    obtain ⟨rfl, rfl⟩ := bytes
    rw [List.append_nil] at read
    by_cases single : first.toNat < 0x80
    · rw [decodeFirst_one _ single] at read
      have none : (lead ++ left).length = 0 := (Prod.mk.inj read).2.symm
      rw [List.length_append] at none
      exact absurd (List.eq_nil_of_length_eq_zero (by omega)) broken
    · obtain ⟨c?, more, at_⟩ := exists_readAt (Nat.not_lt.mp single) lead
      cases c? with
      | none =>
        rw [decode, decodeAfter, at_.read]
        exact List.mem_cons_self
      | some d =>
        -- The character would have been read without the bytes that are missing.
        have early := (at_.spelled d rfl).2 left
        rw [read] at early
        have lengths := (Prod.mk.inj early).2
        have within := at_.next.length_le
        have missing := List.length_pos_iff.mpr broken
        rw [List.length_append] at lengths
        omega

/-- A byte that stands among those of a text after some others begins a character where the others
are a text, and continues one where they break off in it. -/
theorem place_of_utf8 {t : Text} {before rest : List UInt8} {b : UInt8}
    (whole : t.utf8 = before ++ b :: rest) :
    (isContinuation b = false ∧ ∃ front : Text, front <+: t ∧ before = front.utf8) ∨
      (isContinuation b = true ∧ ∃ (front : Text) (c : Char) (lead left : List UInt8),
        front <+: t ∧ before = front.utf8 ++ lead ∧ String.utf8EncodeChar c = lead ++ left ∧
          lead ≠ [] ∧ left ≠ []) := by
  induction t generalizing before with
  | nil => cases before <;> cases whole
  | cons c cs ih =>
    have own : utf8 [c] = String.utf8EncodeChar c := List.append_nil _
    have parted : (∃ later, before = String.utf8EncodeChar c ++ later ∧
        utf8 cs = later ++ b :: rest) ∨ ∃ left, String.utf8EncodeChar c = before ++ b :: left := by
      rw [utf8, List.flatMap_cons, List.append_eq_append_iff] at whole
      obtain ⟨later, same, tail⟩ | ⟨inner, same, tail⟩ := whole
      · exact .inl ⟨later, same, tail⟩
      cases inner with
      | nil => exact .inl ⟨[], by rw [same, List.append_nil, List.append_nil], tail.symm⟩
      | cons d inner =>
        rw [List.cons_append, List.cons.injEq] at tail
        exact .inr ⟨inner, tail.1 ▸ same⟩
    obtain ⟨later, rfl, tail⟩ | ⟨left, split⟩ := parted
    · -- The byte is one of the characters that follow.
      obtain ⟨other, front, begins, rfl⟩ | ⟨other, front, d, lead, left, begins, rfl, found⟩ :=
        ih tail
      · refine .inl ⟨other, c :: front, (List.prefix_cons_inj c).mpr begins, ?_⟩
        rw [← List.singleton_append, utf8_append, own]
      · refine
          .inr ⟨other, c :: front, d, lead, left, (List.prefix_cons_inj c).mpr begins, ?_, found⟩
        rw [← List.singleton_append (x := c), utf8_append, own, List.append_assoc]
    · obtain ⟨first, more, bytes, leads, continues⟩ := utf8EncodeChar_cases c
      cases before with
      | nil =>
        rw [bytes, List.nil_append, List.cons.injEq] at split
        exact .inl ⟨split.1 ▸ leads, [], List.nil_prefix, rfl⟩
      | cons d lead =>
        have listed : b ∈ more := by
          rw [bytes, List.cons_append, List.cons.injEq] at split
          rw [split.2]
          exact List.mem_append_right _ List.mem_cons_self
        exact .inr ⟨continues b listed, [], c, d :: lead, b :: left, List.nil_prefix, rfl, split,
          List.cons_ne_nil _ _, List.cons_ne_nil _ _⟩

end Keyfob.Text
